import FeiProtocol.Evm.Machine
import FeiProtocol.Fei.Fei
import FeiProtocol.Utils.MultiRateLimited

/-!
# `GlobalRateLimitedMinter`

The contract through which registered addresses mint FEI: each mint draws on the minter's
own buffer and on the buffer they all share.

* `step_cases`: what a transaction does to the buffers.
* `minted_flow`, `mintedBy_flow`: over a window in which the limits stay what they are, the
  FEI minted is drawn from the buffers.
* `mints_throttled`: the window bounds, from deployment on.

A transaction is a call of the contract, or a call that somebody makes on FEI. Between
transactions time passes. What is minted is read off FEI's own events.
-/

namespace FeiProtocol

open Evm

structure GlobalRateLimitedMinterState : Type extends MultiRateLimited where
  CONTRACT_ADMIN_ROLE : Bytes32
  _paused : Bool
  fei : FeiState
  /-- the timestamp of the current block -/
  timestamp : Nat

instance : Pausable GlobalRateLimitedMinterState where
  paused s := s._paused
  withPaused s b := { s with _paused := b }

structure GlobalRateLimitedMinterEnv : Type where
  fei : FeiEnv
  access : AccessControl
  this : Address

namespace CoreRef

/-- Nothing is asked of FEI for an amount of zero. -/
def _mintFei (env : FeiEnv) (this : Address) (fei : FeiState) (receiver : Address)
    (amount : Nat) : Except Revert FeiState :=
  if amount ≠ 0 then Fei.mint env fei this receiver amount else return fei

end CoreRef

namespace GlobalRateLimitedMinter

open CoreRef

variable (env : GlobalRateLimitedMinterEnv)

/-! ## The contract -/

def construct (timestamp : Nat) (fei : FeiState) (_globalMaxRateLimitPerSecond
    _perAddressRateLimitMaximum _maxRateLimitPerSecondPerAddress _maxBufferCap
    _globalBufferCap : UInt256) : Except Revert GlobalRateLimitedMinterState := do
  let multiRateLimited ← MultiRateLimited.construct timestamp _globalMaxRateLimitPerSecond
    _perAddressRateLimitMaximum _maxRateLimitPerSecondPerAddress _maxBufferCap _globalBufferCap
  return { toMultiRateLimited := multiRateLimited
           CONTRACT_ADMIN_ROLE := env.access.roles.GOVERNOR
           _paused := false
           fei
           timestamp }

def mint (s : GlobalRateLimitedMinterState) (msgSender receiver : Address) (amount : Nat) :
    Except Revert GlobalRateLimitedMinterState := do
  whenNotPaused s
  let multiRateLimited ← s._depleteIndividualBuffer s.timestamp msgSender amount
  let fei ← _mintFei env.fei env.this s.fei receiver amount
  return { s with toMultiRateLimited := multiRateLimited, fei }

def mintMaxAllowableFei (s : GlobalRateLimitedMinterState) (msgSender receiver : Address) :
    Except Revert GlobalRateLimitedMinterState := do
  whenNotPaused s
  let individual ← s.individualBuffer s.timestamp msgSender
  let buffer ← s.buffer s.timestamp
  let amount := min individual.toNat buffer
  let multiRateLimited ← s._depleteIndividualBuffer s.timestamp msgSender amount
  let fei ← _mintFei env.fei env.this s.fei receiver amount
  return { s with toMultiRateLimited := multiRateLimited, fei }

def setContractAdminRole (s : GlobalRateLimitedMinterState) (msgSender : Address)
    (newContractAdminRole : Bytes32) : Except Revert GlobalRateLimitedMinterState := do
  onlyGovernor env.fei.core msgSender
  return { s with CONTRACT_ADMIN_ROLE := newContractAdminRole }

/-! ## Transactions -/

inductive Action : Type where
  | mint (sender receiver : Address) (amount : UInt256)
  | mintMaxAllowableFei (sender receiver : Address)
  | configure (sender : Address) (c : MultiRateLimited.Configuration)
  | setContractAdminRole (sender : Address) (newContractAdminRole : Bytes32)
  | pause (sender : Address)
  | unpause (sender : Address)
  | fei (sender : Address) (c : Fei.Call)
  | elapse (seconds : Nat)
  deriving DecidableEq, Repr

def step (s : GlobalRateLimitedMinterState) : Action → Except Revert GlobalRateLimitedMinterState
  | .mint sender receiver amount => mint env s sender receiver amount.toNat
  | .mintMaxAllowableFei sender receiver => mintMaxAllowableFei env s sender receiver
  | .configure sender c => do
      let multiRateLimited ← MultiRateLimited.configure env.fei.core env.access
        s.CONTRACT_ADMIN_ROLE s.toMultiRateLimited s.timestamp sender c
      return { s with toMultiRateLimited := multiRateLimited }
  | .setContractAdminRole sender newContractAdminRole =>
      setContractAdminRole env s sender newContractAdminRole
  | .pause sender => pause env.fei.core s sender
  | .unpause sender => unpause env.fei.core s sender
  | .fei sender c => do
      let fei ← Fei.call env.fei s.fei sender c
      return { s with fei }
  | .elapse seconds => .ok { s with timestamp := s.timestamp + seconds }

/-! ## What is minted -/

/-- The amount that FEI reports as minted by `minter`. -/
def FeiEvent.minted (minter : Address) : FeiEvent → Nat
  | .Minting _ m amount => if m = minter then amount else 0
  | .Burning _ _ _ => 0

/-- All that the contract has minted. -/
def feiMinted (this : Address) (fei : FeiState) : Nat :=
  (fei.events.map (FeiEvent.minted this)).sum

/-- The caller of a mint. -/
def Action.minter : Action → Option Address
  | .mint sender _ _ => some sender
  | .mintMaxAllowableFei sender _ => some sender
  | _ => none

/-- What a mint by one of the callers in question creates. -/
def mintedStep (callers : Address → Bool) (s : GlobalRateLimitedMinterState) (a : Action)
    (s' : GlobalRateLimitedMinterState) : Nat :=
  match a.minter with
  | some sender =>
      if callers sender then feiMinted env.this s'.fei - feiMinted env.this s.fei else 0
  | none => 0

/-- The FEI minted along a run, by anybody. -/
def minted (s : GlobalRateLimitedMinterState) (window : List Action) : Nat :=
  total (step env) (mintedStep env fun _ => true) s window

/-- The FEI minted along a run by calls of one address. -/
def mintedBy (account : Address) (s : GlobalRateLimitedMinterState) (window : List Action) :
    Nat :=
  total (step env) (mintedStep env fun a => a = account) s window

variable {env} {s s' : GlobalRateLimitedMinterState} {sender receiver account : Address}
  {amount : Nat} {fei fei' : FeiState}

theorem _mintFei_minted {this : Address}
    (succeeds : _mintFei env.fei this fei receiver amount = .ok fei') :
    feiMinted this fei' = feiMinted this fei + amount := by
  rw [_mintFei] at succeeds
  split at succeeds
  · simp only [Fei.mint, bind_eq_ok_iff, pure_eq_ok_iff] at succeeds
    obtain ⟨_, _, _, _, erc20, _, same⟩ := succeeds
    subst same
    simp [feiMinted, FeiEvent.minted]
  · rename_i none
    cases succeeds
    omega

/-- A mint draws what it creates from both buffers. -/
structure Minted (env : GlobalRateLimitedMinterEnv) (s s' : GlobalRateLimitedMinterState)
    (sender : Address) (amount : Nat) : Prop where
  depleted : MultiRateLimited.Depleted s.toMultiRateLimited s'.toMultiRateLimited s.timestamp
    sender amount
  created : feiMinted env.this s'.fei = feiMinted env.this s.fei + amount
  timestamp : s'.timestamp = s.timestamp

theorem minted_of_mint (succeeds : mint env s sender receiver amount = .ok s') :
    Minted env s s' sender amount := by
  simp only [mint, bind_eq_ok_iff, pure_eq_ok_iff] at succeeds
  obtain ⟨_, _, m, depleted, fei, created, same⟩ := succeeds
  subst same
  exact ⟨MultiRateLimited.depleted_of_depleteIndividualBuffer depleted, _mintFei_minted created,
    rfl⟩

theorem minted_of_mintMaxAllowableFei
    (succeeds : mintMaxAllowableFei env s sender receiver = .ok s') :
    ∃ amount, Minted env s s' sender amount := by
  simp only [mintMaxAllowableFei, bind_eq_ok_iff, pure_eq_ok_iff] at succeeds
  obtain ⟨_, _, individual, _, buffer, _, m, depleted, fei, created, same⟩ := succeeds
  subst same
  exact ⟨_, MultiRateLimited.depleted_of_depleteIndividualBuffer depleted,
    _mintFei_minted created, rfl⟩

/-- A successful transaction is a mint, a change of the configuration, or leaves the
buffers alone while time passes. -/
theorem step_cases {a : Action} (succeeds : step env s a = .ok s') :
    (∃ sender amount, a.minter = some sender ∧ Minted env s s' sender amount) ∨
    (a.minter = none ∧ s'.timestamp = s.timestamp ∧
      MultiRateLimited.Change s.toMultiRateLimited s'.toMultiRateLimited s.timestamp) ∨
    (a.minter = none ∧ s.timestamp ≤ s'.timestamp ∧
      s'.toMultiRateLimited = s.toMultiRateLimited) := by
  cases a with
  | mint sender receiver amount => exact .inl ⟨sender, _, rfl, minted_of_mint succeeds⟩
  | mintMaxAllowableFei sender receiver =>
      obtain ⟨amount, minted⟩ := minted_of_mintMaxAllowableFei succeeds
      exact .inl ⟨sender, amount, rfl, minted⟩
  | configure sender c =>
      obtain ⟨m, configured, same⟩ := bind_eq_ok_iff.mp succeeds
      cases same
      exact .inr (.inl ⟨rfl, rfl, MultiRateLimited.configure_change configured⟩)
  | setContractAdminRole sender newContractAdminRole =>
      obtain ⟨_, _, same⟩ := bind_eq_ok_iff.mp succeeds
      cases same
      exact .inr (.inr ⟨rfl, Nat.le_refl _, rfl⟩)
  | pause sender =>
      have same := pause_eq succeeds
      subst same
      exact .inr (.inr ⟨rfl, Nat.le_refl _, rfl⟩)
  | unpause sender =>
      have same := unpause_eq succeeds
      subst same
      exact .inr (.inr ⟨rfl, Nat.le_refl _, rfl⟩)
  | fei sender c =>
      obtain ⟨fei, _, same⟩ := bind_eq_ok_iff.mp succeeds
      cases same
      exact .inr (.inr ⟨rfl, Nat.le_refl _, rfl⟩)
  | elapse seconds =>
      cases succeeds
      exact .inr (.inr ⟨rfl, Nat.le_add_right _ _, rfl⟩)

/-! ## Windows -/

/-- What holds in every state from deployment on. -/
structure Sound (s : GlobalRateLimitedMinterState) : Prop where
  whole : s.doPartialAction = false
  registry : MultiRateLimited.Registry s.toMultiRateLimited
  positive : 0 < s.timestamp

/-- The limits of the shared buffer are the same in both states. -/
def SameLimits (s s' : GlobalRateLimitedMinterState) : Prop :=
  s'.bufferCap = s.bufferCap ∧ s'.rateLimitPerSecond = s.rateLimitPerSecond

/-- The limits of one address are the same in both states. -/
def SameIndividualLimits (account : Address) (s s' : GlobalRateLimitedMinterState) : Prop :=
  (s'.rateLimitPerAddress account).bufferCap = (s.rateLimitPerAddress account).bufferCap ∧
    (s'.rateLimitPerAddress account).rateLimitPerSecond =
      (s.rateLimitPerAddress account).rateLimitPerSecond

instance : Decidable (SameLimits s s') := inferInstanceAs (Decidable (_ ∧ _))

instance : Decidable (SameIndividualLimits account s s') := inferInstanceAs (Decidable (_ ∧ _))

/-- A window in which no transaction changes the limits of the shared buffer. -/
def Steady (env : GlobalRateLimitedMinterEnv) (s : GlobalRateLimitedMinterState)
    (window : List Action) : Prop :=
  Along (step env) (fun s a => SameLimits s (commit (step env) s a)) s window

/-- A window in which no transaction changes the limits of `account`. -/
def SteadyFor (env : GlobalRateLimitedMinterEnv) (account : Address)
    (s : GlobalRateLimitedMinterState) (window : List Action) : Prop :=
  Along (step env) (fun s a => SameIndividualLimits account s (commit (step env) s a)) s window

theorem step_sound {a : Action} (sound : Sound s) (succeeds : step env s a = .ok s') :
    Sound s' := by
  rcases step_cases succeeds with ⟨sender, amount, _, minted⟩ | ⟨_, time, change⟩ |
    ⟨_, later, same⟩
  · have change := MultiRateLimited.Change.depleted sender amount minted.depleted
    refine ⟨change.doPartialAction.trans sound.whole,
      change.registry sound.registry sound.positive, ?_⟩
    rw [minted.timestamp]
    exact sound.positive
  · refine ⟨change.doPartialAction.trans sound.whole,
      change.registry sound.registry sound.positive, ?_⟩
    rw [time]
    exact sound.positive
  · refine ⟨?_, ?_, Nat.lt_of_lt_of_le sound.positive later⟩
    · rw [same]
      exact sound.whole
    · rw [same]
      exact sound.registry

/-- The flow of the shared buffer between two states. -/
def SharedFlow (s : GlobalRateLimitedMinterState) (drawn : Nat)
    (s' : GlobalRateLimitedMinterState) : Prop :=
  TokenBucket.Flow s.bucket s'.bucket s.timestamp s'.timestamp drawn 0

/-- The flow of one address's buffer between two states. -/
def IndividualFlow (account : Address) (s : GlobalRateLimitedMinterState) (drawn : Nat)
    (s' : GlobalRateLimitedMinterState) : Prop :=
  TokenBucket.Flow (s.individual account) (s'.individual account) s.timestamp s'.timestamp
    drawn 0

theorem step_shared {a : Action} (sound : Sound s) (limits : SameLimits s s')
    (succeeds : step env s a = .ok s') :
    SharedFlow s (mintedStep env (fun _ => true) s a s') s' := by
  rcases step_cases succeeds with ⟨sender, amount, caller, minted⟩ | ⟨quiet, time, change⟩ |
    ⟨quiet, later, same⟩
  · have created := minted.created
    have flow := minted.depleted.contract_flow sound.whole
    rw [SharedFlow, mintedStep, caller, minted.timestamp]
    exact flow.of_drawn (by simp only [if_true]; omega)
  · rw [SharedFlow, mintedStep, quiet, time]
    exact change.contract_flow limits.1 limits.2
  · rw [SharedFlow, mintedStep, quiet, same]
    exact .wait _ later

theorem step_individual {a : Action} (sound : Sound s) (limits : SameIndividualLimits account s s')
    (succeeds : step env s a = .ok s') :
    IndividualFlow account s (mintedStep env (fun x => x = account) s a s') s' := by
  rcases step_cases succeeds with ⟨sender, amount, caller, minted⟩ | ⟨quiet, time, change⟩ |
    ⟨quiet, later, same⟩
  · have created := minted.created
    rw [IndividualFlow, mintedStep, caller, minted.timestamp]
    by_cases own : sender = account
    · subst own
      exact minted.depleted.individual_flow.of_drawn (by simp only [decide_true, if_true]; omega)
    · simp only [own, decide_false, Bool.false_eq_true, if_false]
      exact (MultiRateLimited.Change.depleted sender amount minted.depleted).individual_flow
        sound.registry limits.1 limits.2
  · rw [IndividualFlow, mintedStep, quiet, time]
    exact change.individual_flow sound.registry limits.1 limits.2
  · rw [IndividualFlow, mintedStep, quiet, same]
    exact .wait _ later

/-- Over a steady window, what is minted is drawn from the shared buffer. -/
theorem minted_flow (sound : Sound s) {window : List Action} (steady : Steady env s window) :
    SharedFlow s (minted env s window) (run (step env) s window) := by
  apply (run_total (I := Sound) (R := SharedFlow) (P := fun s a =>
    SameLimits s (commit (step env) s a)) _ _ _ sound steady).2
  · intro s
    exact .refl _ _
  · intro s t u m n first second
    exact first.trans second
  · intro s a s' sound limits succeeds
    rw [commit_of_ok succeeds] at limits
    exact ⟨step_sound sound succeeds, step_shared sound limits succeeds⟩

/-- Over a window that is steady for an address, what it mints is drawn from its buffer. -/
theorem mintedBy_flow (sound : Sound s) {window : List Action}
    (steady : SteadyFor env account s window) :
    IndividualFlow account s (mintedBy env account s window) (run (step env) s window) := by
  apply (run_total (I := Sound) (R := IndividualFlow account) (P := fun s a =>
    SameIndividualLimits account s (commit (step env) s a)) _ _ _ sound steady).2
  · intro s
    exact .refl _ _
  · intro s t u m n first second
    exact first.trans second
  · intro s a s' sound limits succeeds
    rw [commit_of_ok succeeds] at limits
    exact ⟨step_sound sound succeeds, step_individual sound limits succeeds⟩

/-! ## The throttle -/

theorem sound_of_construct {timestamp : Nat} {s₀ : GlobalRateLimitedMinterState}
    {globalMax perAddress maxPerAddress maxCap globalCap : UInt256}
    (deploys : construct env timestamp fei globalMax perAddress maxPerAddress maxCap globalCap =
      .ok s₀) (positive : 0 < timestamp) : Sound s₀ := by
  simp only [construct, MultiRateLimited.construct, RateLimited.construct, bind_eq_ok_iff,
    pure_eq_ok_iff] at deploys
  obtain ⟨m, ⟨r, ⟨_, _, _, _, rateLimited⟩, _, _, multiRateLimited⟩, same⟩ := deploys
  subst rateLimited
  subst multiRateLimited
  subst same
  exact ⟨rfl, fun _ _ => rfl, positive⟩

theorem run_sound (sound : Sound s) (actions : List Action) : Sound (run (step env) s actions) :=
  run_invariant (I := Sound) (A := fun _ => True)
    (fun sound _ succeeds => step_sound sound succeeds) sound fun _ _ => trivial

/-- An address that is not registered cannot mint. -/
theorem not_minted_of_unregistered (sound : Sound s)
    (unregistered : (s.rateLimitPerAddress sender).lastBufferUsedTime = 0) :
    ¬ Minted env s s' sender amount := by
  intro minted
  exact minted.depleted.positive
    (MultiRateLimited.level_of_unregistered sound.registry unregistered)

/-- A configuration call that sets limits of one of the buffers raises that buffer by
nothing at once. -/
def RaisesNothing (s s' : GlobalRateLimitedMinterState) : MultiRateLimited.Configuration → Prop
  | .setRateLimitPerSecond _ | .setBufferCap _ =>
      ∃ before after, s.buffer s.timestamp = .ok before ∧ s'.buffer s'.timestamp = .ok after ∧
        after ≤ before
  | .updateAddress account _ _ =>
      ∃ before after, s.individualBuffer s.timestamp account = .ok before ∧
        s'.individualBuffer s'.timestamp account = .ok after ∧ after ≤ before
  | _ => True

theorem configure_raisesNothing {c : MultiRateLimited.Configuration}
    (succeeds : step env s (.configure sender c) = .ok s') : RaisesNothing s s' c := by
  obtain ⟨m, configured, same⟩ := bind_eq_ok_iff.mp succeeds
  cases same
  cases c with
  | setRateLimitPerSecond newRateLimitPerSecond =>
      obtain ⟨r, called, same⟩ := bind_eq_ok_iff.mp configured
      cases same
      exact (RateLimited.setRateLimitPerSecond_relimited called).buffer_le
  | setBufferCap newBufferCap =>
      obtain ⟨r, called, same⟩ := bind_eq_ok_iff.mp configured
      cases same
      exact (RateLimited.setBufferCap_relimited called).buffer_le
  | updateAddress a _rateLimitPerSecond _bufferCap =>
      exact (MultiRateLimited.updated_of_updateAddress
        (MultiRateLimited.updateAddress_eq_ok configured)).individualBuffer_le
  | updateMaxRateLimitPerSecond _ => trivial
  | updateMaxBufferCap _ => trivial
  | addAddress _ _ _ => trivial
  | addAddressAsMinter _ => trivial
  | addAddressAsMinterWithLimits _ _ _ => trivial
  | removeAddress _ => trivial

/-- **The throttle.** From deployment on, in a block after genesis: over every window under
unchanged limits, all mints together stay within the shared buffer and its refill, and those
of one address within its own; an unregistered address cannot mint; a call that reverts
uses up neither buffer; and new limits raise no buffer at once. -/
theorem mints_throttled {timestamp : Nat} {s₀ : GlobalRateLimitedMinterState}
    {globalMax perAddress maxPerAddress maxCap globalCap : UInt256}
    (deploys : construct env timestamp fei globalMax perAddress maxPerAddress maxCap globalCap =
      .ok s₀) (positive : 0 < timestamp) {history : List Action}
    (reached : s = run (step env) s₀ history) :
    (∀ window, Steady env s window →
      (∀ buffer, s.buffer s.timestamp = .ok buffer → minted env s window ≤
        buffer + s.rateLimitPerSecond * ((run (step env) s window).timestamp - s.timestamp)) ∧
      minted env s window ≤ s.bufferCap +
        s.rateLimitPerSecond * ((run (step env) s window).timestamp - s.timestamp)) ∧
    (∀ account window, SteadyFor env account s window →
      ∀ buffer, s.individualBuffer s.timestamp account = .ok buffer →
        mintedBy env account s window ≤ buffer.toNat +
          (s.rateLimitPerAddress account).rateLimitPerSecond.toNat *
            ((run (step env) s window).timestamp - s.timestamp)) ∧
    (∀ a sender s', a.minter = some sender →
      (s.rateLimitPerAddress sender).lastBufferUsedTime = 0 → step env s a ≠ .ok s') ∧
    (∀ a e, step env s a = .error e →
      (commit (step env) s a).buffer (commit (step env) s a).timestamp = s.buffer s.timestamp ∧
      ∀ account, (commit (step env) s a).individualBuffer (commit (step env) s a).timestamp
        account = s.individualBuffer s.timestamp account) ∧
    ∀ sender c s', step env s (.configure sender c) = .ok s' → RaisesNothing s s' c := by
  have sound : Sound s := reached ▸ run_sound (sound_of_construct deploys positive) history
  refine ⟨?_, ?_, ?_, ?_, ?_⟩
  · intro window steady
    have flow := minted_flow sound steady
    refine ⟨?_, flow.drawn_le_cap⟩
    intro buffer gets
    obtain ⟨_, level⟩ := RateLimited.buffer_eq_ok_iff.mp gets
    rw [← level]
    exact flow.drawn_le
  · intro account window steady buffer gets
    obtain ⟨_, level⟩ := MultiRateLimited.individualBuffer_eq_ok_iff.mp gets
    rw [← level]
    exact (mintedBy_flow sound steady).drawn_le
  · intro a sender s' caller unregistered succeeds
    rcases step_cases succeeds with ⟨minter, amount, called, minted⟩ | ⟨quiet, _⟩ | ⟨quiet, _⟩
    · rw [caller] at called
      cases called
      exact not_minted_of_unregistered sound unregistered minted
    · rw [caller] at quiet
      cases quiet
    · rw [caller] at quiet
      cases quiet
  · intro a e reverts
    rw [commit_of_error reverts]
    exact ⟨rfl, fun _ => rfl⟩
  · intro sender c s' succeeds
    exact configure_raisesNothing succeeds

end GlobalRateLimitedMinter

namespace GlobalRateLimitedMinter.Sample

/-- Account 1 governs; the minter at `0xAA` may mint. -/
def env : GlobalRateLimitedMinterEnv where
  fei :=
    { core :=
        { isMinter := fun a => a = 0xAA
          isBurner := fun _ => false
          isPCVController := fun _ => false
          isGovernor := fun a => a = 1
          isGuardian := fun _ => false }
      super := .standard
      incentivize := fun _ s _ _ _ _ => .ok s }
  access :=
    { hasRole := fun role a => role = 1 ∧ a = 1
      roles := ⟨1, 2, 3, 4⟩ }
  this := 0xAA

def fei : FeiState where
  erc20 := ⟨fun _ => 0, fun _ _ => 0, 0, true⟩
  incentiveContract := fun _ => 0
  _paused := false
  events := []

/-- A shared buffer of 1000 that refills at 10 a second. -/
def start : GlobalRateLimitedMinterState where
  MAX_RATE_LIMIT_PER_SECOND := 100
  rateLimitPerSecond := 10
  lastBufferUsedTime := 1000
  bufferCap := 1000
  doPartialAction := false
  bufferStored := 1000
  rateLimitPerAddress := fun _ => .empty
  individualMaxRateLimitPerSecond := 5
  individualMaxBufferCap := 500
  CONTRACT_ADMIN_ROLE := 1
  _paused := false
  fei := fei
  timestamp := 1000

theorem deploys : construct env 1000 fei 100 10 5 500 1000 = .ok start := rfl

/-- Accounts 7 and 8 may mint; 7 used 300 of its 400, 20 seconds ago. -/
def history : List Action :=
  [.configure 1 (.addAddress 7 5 400), .configure 1 (.addAddress 8 50 900),
    .mint 7 7 300, .elapse 20]

/-- Account 8 takes what it can; 7 and the unregistered 9 ask for too much. -/
def window : List Action :=
  [.mintMaxAllowableFei 8 8, .mint 7 7 150, .elapse 10, .mint 9 9 1, .mint 7 7 100]

def reached : GlobalRateLimitedMinterState := run (step env) start history

theorem reached_eq : reached = run (step env) start history := rfl

theorem steady : Steady env reached window := by
  unfold Steady
  decide +kernel

theorem steadyFor : SteadyFor env 7 reached window := by
  unfold SteadyFor
  decide +kernel

end GlobalRateLimitedMinter.Sample

namespace GlobalRateLimitedMinter

/-- The shared bound is met with equality. -/
theorem mints_throttled_sample :
    (minted Sample.env Sample.reached Sample.window = 1000 ∧
      minted Sample.env Sample.reached Sample.window ≤ 900 + 10 * 10) ∧
    (mintedBy Sample.env 7 Sample.reached Sample.window = 100 ∧
      mintedBy Sample.env 7 Sample.reached Sample.window ≤ 200 + 5 * 10) := by
  obtain ⟨shared, individual, _⟩ :=
    mints_throttled Sample.deploys (by decide) Sample.reached_eq
  refine ⟨⟨by decide +kernel, ?_⟩, ⟨by decide +kernel, ?_⟩⟩
  · exact (shared Sample.window Sample.steady).1 900 (by decide +kernel)
  · exact individual 7 Sample.window Sample.steadyFor 200 (by decide +kernel)

end GlobalRateLimitedMinter

end FeiProtocol
