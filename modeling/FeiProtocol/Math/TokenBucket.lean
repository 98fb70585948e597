import Mathlib.Tactic.Linarith
import Mathlib.Tactic.Ring

/-!
# Token buckets

A bucket holds at most `cap` and refills at `rate` per unit of time. It is stored lazily:
`stored` is what it held when it was last touched, and `level` is what it holds now.

* `Flow`: what happened to a bucket between two times, with how much was drawn from it and
  how much was poured into it. Waiting, drawing and pouring are flows, and flows compose.
* `Flow.drawn_le`: in any window no more is drawn than the level at its start, what
  the window refills and what is poured in.
* `Drain.drawn_le`: the same where the limits change, for a rate that none of them exceeds.
-/

structure TokenBucket : Type where
  cap : Nat
  rate : Nat
  stored : Nat
  lastUsed : Nat
  deriving DecidableEq, Repr

namespace TokenBucket

/-- What the bucket holds at time `now`. -/
def level (b : TokenBucket) (now : Nat) : Nat :=
  min (b.stored + b.rate * (now - b.lastUsed)) b.cap

/-- Take `amount` out. -/
def draw (b : TokenBucket) (now amount : Nat) : TokenBucket :=
  { b with stored := b.level now - amount, lastUsed := now }

/-- Put `amount` in; what does not fit is lost. -/
def pour (b : TokenBucket) (now amount : Nat) : TokenBucket :=
  { b with stored := min (b.level now + amount) b.cap, lastUsed := now }

/-- Change the limits from now on. -/
def relimit (b : TokenBucket) (now cap rate : Nat) : TokenBucket :=
  { cap, rate, stored := b.level now, lastUsed := now }

variable {b b' b'' : TokenBucket} {now later amount cap rate : Nat}

theorem level_le_cap (b : TokenBucket) (now : Nat) : b.level now ≤ b.cap :=
  Nat.min_le_right _ _

@[simp]
theorem level_draw : (b.draw now amount).level now = b.level now - amount := by
  have le := b.level_le_cap now
  simp only [draw, level, Nat.sub_self, Nat.mul_zero, Nat.add_zero] at le ⊢
  omega

@[simp]
theorem level_pour : (b.pour now amount).level now = min (b.level now + amount) b.cap := by
  simp only [pour, level, Nat.sub_self, Nat.mul_zero, Nat.add_zero]
  omega

@[simp]
theorem level_relimit : (b.relimit now cap rate).level now = min (b.level now) cap := by
  simp only [relimit, level, Nat.sub_self, Nat.mul_zero, Nat.add_zero]

/-- New limits never give more at once. -/
theorem level_relimit_le : (b.relimit now cap rate).level now ≤ b.level now := by
  rw [level_relimit]
  exact Nat.min_le_left _ _

/-- Time refills at most `rate` per unit. -/
theorem level_wait (b : TokenBucket) (le : now ≤ later) :
    b.level later ≤ b.level now + b.rate * (later - now) := by
  have elapsed : later - b.lastUsed ≤ (now - b.lastUsed) + (later - now) := by omega
  have refilled : b.rate * (later - b.lastUsed) ≤
      b.rate * (now - b.lastUsed) + b.rate * (later - now) :=
    calc b.rate * (later - b.lastUsed)
      _ ≤ b.rate * ((now - b.lastUsed) + (later - now)) := Nat.mul_le_mul_left _ elapsed
      _ = b.rate * (now - b.lastUsed) + b.rate * (later - now) := Nat.mul_add _ _ _
  simp only [level]
  omega

/-! ## Flows -/

/-- From `b` at time `t` to `b'` at time `t'`, under unchanged limits. -/
structure Flow (b b' : TokenBucket) (t t' drawn poured : Nat) : Prop where
  cap : b'.cap = b.cap
  rate : b'.rate = b.rate
  later : t ≤ t'
  level_add_le : b'.level t' + drawn ≤ b.level t + b.rate * (t' - t) + poured

namespace Flow

variable {t t' t'' drawn drawn' poured poured' : Nat}

theorem refl (b : TokenBucket) (t : Nat) : Flow b b t t 0 0 :=
  ⟨rfl, rfl, Nat.le_refl _, by omega⟩

theorem wait (b : TokenBucket) (later : t ≤ t') : Flow b b t t' 0 0 :=
  ⟨rfl, rfl, later, b.level_wait later⟩

theorem draw (le : amount ≤ b.level t) : Flow b (b.draw t amount) t t amount 0 := by
  refine ⟨rfl, rfl, Nat.le_refl _, ?_⟩
  rw [level_draw]
  omega

theorem pour (b : TokenBucket) (t amount : Nat) : Flow b (b.pour t amount) t t 0 amount := by
  refine ⟨rfl, rfl, Nat.le_refl _, ?_⟩
  rw [level_pour]
  omega

/-- Limits that are set to what they were. -/
theorem relimit (b : TokenBucket) (t : Nat) : Flow b (b.relimit t b.cap b.rate) t t 0 0 := by
  refine ⟨rfl, rfl, Nat.le_refl _, ?_⟩
  have le : (b.relimit t b.cap b.rate).level t ≤ b.level t := level_relimit_le
  omega

theorem trans (first : Flow b b' t t' drawn poured) (second : Flow b' b'' t' t'' drawn' poured') :
    Flow b b'' t t'' (drawn + drawn') (poured + poured') := by
  refine ⟨second.cap.trans first.cap, second.rate.trans first.rate,
    Nat.le_trans first.later second.later, ?_⟩
  have now := first.level_add_le
  have next := second.level_add_le
  have before := first.later
  have after := second.later
  rw [first.rate] at next
  have split : b.rate * (t'' - t) = b.rate * (t' - t) + b.rate * (t'' - t') := by
    rw [← Nat.mul_add]
    congr 1
    omega
  omega

/-- Less may be accounted for. -/
theorem of_drawn (flow : Flow b b' t t' drawn poured) (le : drawn' ≤ drawn) :
    Flow b b' t t' drawn' poured := by
  refine ⟨flow.cap, flow.rate, flow.later, ?_⟩
  have bound := flow.level_add_le
  omega

/-- An empty bucket under the same limits. -/
theorem emptied (cap : b'.cap = b.cap) (rate : b'.rate = b.rate) (empty : b'.cap = 0) :
    Flow b b' t t 0 0 := by
  refine ⟨cap, rate, Nat.le_refl _, ?_⟩
  have le := b'.level_le_cap t
  omega

/-- **Throttle.** What a window lets out. -/
theorem drawn_le (flow : Flow b b' t t' drawn poured) :
    drawn ≤ b.level t + b.rate * (t' - t) + poured :=
  Nat.le_trans (Nat.le_add_left _ _) flow.level_add_le

theorem drawn_le_cap (flow : Flow b b' t t' drawn poured) :
    drawn ≤ b.cap + b.rate * (t' - t) + poured := by
  have le := b.level_le_cap t
  have bound := flow.drawn_le
  omega

end Flow

/-! ## Under changing limits -/

/-- From `b` at time `t` to `b'` at time `t'`, under limits that may have changed meanwhile,
but never to a rate above `most`. -/
structure Drain (most : Nat) (b b' : TokenBucket) (t t' drawn : Nat) : Prop where
  later : t ≤ t'
  level_add_le : b'.level t' + drawn ≤ b.level t + most * (t' - t)

namespace Drain

variable {most t t' t'' drawn drawn' : Nat}

theorem refl (b : TokenBucket) (t : Nat) : Drain most b b t t 0 :=
  ⟨Nat.le_refl _, by omega⟩

theorem wait (slow : b.rate ≤ most) (later : t ≤ t') : Drain most b b t t' 0 := by
  refine ⟨later, ?_⟩
  calc b.level t' + 0
    _ ≤ b.level t + b.rate * (t' - t) := b.level_wait later
    _ ≤ b.level t + most * (t' - t) := Nat.add_le_add_left (Nat.mul_le_mul_right _ slow) _

theorem draw (le : amount ≤ b.level t) : Drain most b (b.draw t amount) t t amount := by
  refine ⟨Nat.le_refl _, ?_⟩
  rw [level_draw]
  omega

/-- New limits let nothing out. -/
theorem relimit (b : TokenBucket) (t cap rate : Nat) :
    Drain most b (b.relimit t cap rate) t t 0 :=
  ⟨Nat.le_refl _, Nat.le_add_right_of_le level_relimit_le⟩

theorem trans (first : Drain most b b' t t' drawn) (second : Drain most b' b'' t' t'' drawn') :
    Drain most b b'' t t'' (drawn + drawn') := by
  refine ⟨Nat.le_trans first.later second.later, ?_⟩
  have now := first.level_add_le
  have next := second.level_add_le
  have before := first.later
  have after := second.later
  have split : most * (t'' - t) = most * (t' - t) + most * (t'' - t') := by
    rw [← Nat.mul_add]
    congr 1
    omega
  omega

/-- What a window lets out, whatever becomes of the limits. -/
theorem drawn_le (drain : Drain most b b' t t' drawn) :
    drawn ≤ b.level t + most * (t' - t) :=
  Nat.le_trans (Nat.le_add_left _ _) drain.level_add_le

end Drain

end TokenBucket
