import Mathlib.Data.Rat.Floor
import Mathlib.Tactic.Linarith
import DataPipeline.Library.Execution

/-! The idempotency tracker and the retries of `libs/platform/retry.py`. -/

set_option autoImplicit false

namespace DataPipeline.Platform

/-- The dict `_seen` maps a key to the time it was last marked. -/
structure IdempotencyKeyTracker where
  seen : String → Option ℚ
  ttlSeconds : ℚ

namespace IdempotencyKeyTracker

def empty (ttlSeconds : ℚ) : IdempotencyKeyTracker := ⟨fun _ => none, ttlSeconds⟩

/-- The answer, and the tracker without the key if its mark has expired. -/
def isDuplicate (tracker : IdempotencyKeyTracker) (key : String) (now : ℚ) :
    Bool × IdempotencyKeyTracker :=
  match tracker.seen key with
  | none => (false, tracker)
  | some marked =>
    let age := now - marked
    if tracker.ttlSeconds < age then
      (false, { tracker with seen := Function.update tracker.seen key none })
    else (true, tracker)

def markSeen (tracker : IdempotencyKeyTracker) (key : String) (now : ℚ) : IdempotencyKeyTracker :=
  { tracker with seen := Function.update tracker.seen key (some now) }

def cleanupExpired (tracker : IdempotencyKeyTracker) (now : ℚ) : IdempotencyKeyTracker :=
  { tracker with seen := fun key => (tracker.seen key).filter fun marked => ¬ tracker.ttlSeconds < now - marked }

variable (tracker : IdempotencyKeyTracker) (key : String) (now : ℚ)

theorem isDuplicate_iff :
    (tracker.isDuplicate key now).1 = true ↔
      ∃ marked, tracker.seen key = some marked ∧ now - marked ≤ tracker.ttlSeconds := by
  unfold isDuplicate
  cases found : tracker.seen key with
  | none => simp
  | some marked => by_cases expired : tracker.ttlSeconds < now - marked <;> simp [expired] <;> linarith

@[simp] theorem isDuplicate_ttlSeconds :
    (tracker.isDuplicate key now).2.ttlSeconds = tracker.ttlSeconds := by
  unfold isDuplicate
  cases tracker.seen key with
  | none => rfl
  | some marked => by_cases expired : tracker.ttlSeconds < now - marked <;> simp [expired]

theorem isDuplicate_seen_other {other : String} (different : other ≠ key) :
    (tracker.isDuplicate key now).2.seen other = tracker.seen other := by
  unfold isDuplicate
  cases tracker.seen key with
  | none => rfl
  | some marked => by_cases expired : tracker.ttlSeconds < now - marked <;> simp [expired, different]

theorem isDuplicate_kept (duplicate : (tracker.isDuplicate key now).1 = true) :
    (tracker.isDuplicate key now).2 = tracker := by
  unfold isDuplicate at duplicate ⊢
  cases found : tracker.seen key with
  | none => rfl
  | some marked =>
    rw [found] at duplicate
    by_cases expired : tracker.ttlSeconds < now - marked
    · simp [expired] at duplicate
    · simp [expired]

@[simp] theorem markSeen_seen : (tracker.markSeen key now).seen key = some now := by
  simp [markSeen]

theorem markSeen_seen_other {other : String} (different : other ≠ key) :
    (tracker.markSeen key now).seen other = tracker.seen other := by
  simp [markSeen, different]

@[simp] theorem markSeen_ttlSeconds : (tracker.markSeen key now).ttlSeconds = tracker.ttlSeconds := rfl

end IdempotencyKeyTracker

/-! ## Retries -/

/-- `_apply_jitter`, with what `random.uniform` draws. -/
def applyJitter (uniform : ℚ → ℚ → ℚ) (baseValue minJitter maxJitter : ℚ) : ℚ :=
  baseValue + uniform minJitter maxJitter

structure ExponentialBackoff where
  maxRetries : Nat := 3
  baseDelay : ℚ := 1
  maxDelay : ℚ := 60
  jitter : Bool := true

namespace ExponentialBackoff

open Execution

variable {State Value Error : Type}

/-- The seconds between an attempt and the next. -/
def delay (policy : ExponentialBackoff) (uniform : ℚ → ℚ → ℚ) (attempt : Nat) : ℚ :=
  let delay := min (policy.baseDelay * 2 ^ attempt) policy.maxDelay
  if policy.jitter then applyJitter uniform delay (-(delay / 5)) (delay / 5) else delay

/-- What an attempt needs that is not in the program: the function, which is told
the number of the attempt for its readings of clocks, the draws of the jitter,
and the sleep, which says whether it was cancelled. -/
structure Surroundings (State Value Error : Type) where
  func : Nat → State → State × Outcome Value Error
  uniform : Nat → ℚ → ℚ → ℚ
  sleep : ℚ → State → State × Bool

/-- The attempts from the given one on, with so many left after it. -/
def attempts (policy : ExponentialBackoff) (around : Surroundings State Value Error) :
    Nat → Nat → State → State × Outcome Value Error
  | left, attempt, state =>
    match around.func attempt state with
    | (state, .returned value) => (state, .returned value)
    | (state, .cancelled) => (state, .cancelled)
    | (state, .raised exception) =>
      match left with
      | 0 => (state, .raised exception)
      | left + 1 =>
        match around.sleep (policy.delay (around.uniform attempt) attempt) state with
        | (state, true) => (state, .cancelled)
        | (state, false) => attempts policy around left (attempt + 1) state

/-- A call of the decorated function. -/
def wrapper (policy : ExponentialBackoff) (around : Surroundings State Value Error) (state : State) :
    State × Outcome Value Error :=
  policy.attempts around policy.maxRetries 0 state

variable {policy : ExponentialBackoff} {around : Surroundings State Value Error} {states : Nat → State}

def Fails (policy : ExponentialBackoff) (around : Surroundings State Value Error) (states : Nat → State)
    (count : Nat) : Prop :=
  ∀ attempt < count, ∃ state error, around.func attempt (states attempt) = (state, .raised error) ∧
    around.sleep (policy.delay (around.uniform attempt) attempt) state = (states (attempt + 1), false)

theorem wrapper_after {failures : Nat} (enough : failures ≤ policy.maxRetries)
    (fails : policy.Fails around states failures) :
    policy.wrapper around (states 0) =
      policy.attempts around (policy.maxRetries - failures) failures (states failures) := by
  induction failures with
  | zero => rfl
  | succ failures ih =>
    obtain ⟨state, error, raises, sleeps⟩ := fails failures (Nat.lt_succ_self failures)
    have left : policy.maxRetries - failures = policy.maxRetries - (failures + 1) + 1 := by omega
    rw [ih (by omega) fun attempt before => fails attempt (Nat.lt_succ_of_lt before), left, attempts, raises]
    simp only [sleeps]

/-- The decorated function ends as the first attempt that does not raise, or as the last one. -/
theorem wrapper_recovers {failures : Nat} (enough : failures ≤ policy.maxRetries)
    (fails : policy.Fails around states failures) {final : State} {outcome : Outcome Value Error}
    (ends : around.func failures (states failures) = (final, outcome))
    (last : (∀ error, outcome ≠ .raised error) ∨ failures = policy.maxRetries) :
    policy.wrapper around (states 0) = (final, outcome) := by
  rw [wrapper_after enough fails]
  cases left : policy.maxRetries - failures with
  | zero =>
    rw [attempts, ends]
    cases outcome <;> rfl
  | succ left =>
    rw [attempts, ends]
    cases outcome with
    | returned | cancelled => rfl
    | raised error =>
      rcases last with never | impossible
      · exact absurd rfl (never error)
      · omega

theorem wrapper_first {state final : State} {outcome : Outcome Value Error}
    (ends : around.func 0 state = (final, outcome)) (done : ∀ error, outcome ≠ .raised error) :
    policy.wrapper around state = (final, outcome) := by
  have none : policy.Fails around (fun _ => state) 0 := fun attempt before => absurd before (Nat.not_lt_zero attempt)
  exact wrapper_recovers (Nat.zero_le _) none ends (.inl done)

end ExponentialBackoff

end DataPipeline.Platform
