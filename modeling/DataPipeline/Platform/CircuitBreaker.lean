import DataPipeline.Library.Execution
import Mathlib.Data.Rat.Floor
import Mathlib.Tactic.Linarith

/-! The circuit breaker of `libs/platform/circuit_breaker.py` and its meaning
for calls that do not overlap.

Clock readings are rationals, so elapsed times are exact. The reading taken
when a call is admitted and the one taken when its failure is recorded are
separate, because the wrapped function runs between them.
-/

set_option autoImplicit false

namespace DataPipeline.Platform

open Execution

inductive CircuitState where
  | closed
  | open
  | halfOpen
  deriving DecidableEq, Repr

/-- The constructor arguments of `_CircuitBreaker`. -/
structure CircuitConfig where
  name : String
  failureThreshold : Nat
  recoveryTimeout : ℚ
  deriving DecidableEq

structure CircuitBreaker where
  state : CircuitState
  failureCount : Nat
  lastFailureTime : Option ℚ
  deriving DecidableEq

namespace CircuitBreaker

def initial : CircuitBreaker := ⟨.closed, 0, none⟩

/-- `self._last_failure_time or 0.0` -/
def lastFailure (breaker : CircuitBreaker) : ℚ := breaker.lastFailureTime.getD 0

def maybeTransitionToHalfOpen (config : CircuitConfig) (breaker : CircuitBreaker) (now : ℚ) :
    CircuitBreaker :=
  if breaker.state = .open then
    let elapsed := now - breaker.lastFailure
    if config.recoveryTimeout ≤ elapsed then { breaker with state := .halfOpen } else breaker
  else breaker

def onSuccess (_ : CircuitBreaker) : CircuitBreaker :=
  -- The state it is called in plays no part, so even an OPEN breaker closes.
  { state := .closed, failureCount := 0, lastFailureTime := none }

def onFailure (config : CircuitConfig) (breaker : CircuitBreaker) (now : ℚ) : CircuitBreaker :=
  let failureCount := breaker.failureCount + 1
  { state :=
      -- A failing probe opens the breaker again, whatever the count.
      if config.failureThreshold ≤ failureCount ∨ breaker.state = .halfOpen then .open
      else breaker.state
    failureCount
    lastFailureTime := some now }

end CircuitBreaker

inductive CallResult (α ε : Type) where
  | circuitOpenError (message : String)
  | ended (outcome : Outcome α ε)
  deriving DecidableEq, Repr

/-- What a caller of `_CircuitBreaker.call` can observe, with the breaker left behind. -/
structure Called (α ε : Type) where
  result : CallResult α ε
  invoked : Bool
  breaker : CircuitBreaker

variable {α ε : Type}

def circuitOpenMessage (name : String) : String :=
  "Circuit '" ++ name ++ "' is OPEN — call rejected to protect downstream"

/-- One call that no other call overlaps: admitted at `admitted`, its function
ending in `func`, the outcome recorded at `recorded`. -/
def CircuitBreaker.call (config : CircuitConfig) (breaker : CircuitBreaker) (admitted : ℚ)
    (func : Outcome α ε) (recorded : ℚ) : Called α ε :=
  let gate := breaker.maybeTransitionToHalfOpen config admitted
  if gate.state = .open then ⟨.circuitOpenError (circuitOpenMessage config.name), false, gate⟩
  else
    match func with
    | .raised _ => ⟨.ended func, true, gate.onFailure config recorded⟩
    | .returned _ => ⟨.ended func, true, gate.onSuccess⟩
    -- A cancellation is no `Exception` and is not recorded.
    | .cancelled => ⟨.ended func, true, gate⟩

/-! ## What each operation can do -/

namespace CircuitBreaker

theorem maybeTransitionToHalfOpen_cases (config : CircuitConfig) (breaker : CircuitBreaker) (now : ℚ) :
    (breaker.state = .open ∧ config.recoveryTimeout ≤ now - breaker.lastFailure ∧
      breaker.maybeTransitionToHalfOpen config now = { breaker with state := .halfOpen }) ∨
    (breaker.state = .open ∧ now - breaker.lastFailure < config.recoveryTimeout ∧
      breaker.maybeTransitionToHalfOpen config now = breaker) ∨
    (breaker.state ≠ .open ∧ breaker.maybeTransitionToHalfOpen config now = breaker) := by
  unfold maybeTransitionToHalfOpen
  by_cases opened : breaker.state = .open
  · by_cases elapsed : config.recoveryTimeout ≤ now - breaker.lastFailure
    · exact .inl ⟨opened, elapsed, by simp [opened, elapsed]⟩
    · exact .inr (.inl ⟨opened, not_le.mp elapsed, by simp [elapsed]⟩)
  · exact .inr (.inr ⟨opened, by simp [opened]⟩)

theorem gate_open_iff (config : CircuitConfig) (breaker : CircuitBreaker) (now : ℚ) :
    (breaker.maybeTransitionToHalfOpen config now).state = .open ↔
      breaker.state = .open ∧ now - breaker.lastFailure < config.recoveryTimeout := by
  rcases maybeTransitionToHalfOpen_cases config breaker now with
    ⟨opened, elapsed, same⟩ | ⟨opened, waiting, same⟩ | ⟨other, same⟩
  · simp [same, elapsed.not_gt]
  · simp [same, opened, waiting]
  · simp [same, other]

/-- The gate neither closes a breaker nor lets a closed one leave CLOSED. -/
theorem gate_closed_iff (config : CircuitConfig) (breaker : CircuitBreaker) (now : ℚ) :
    (breaker.maybeTransitionToHalfOpen config now).state = .closed ↔ breaker.state = .closed := by
  rcases maybeTransitionToHalfOpen_cases config breaker now with
    ⟨opened, -, same⟩ | ⟨opened, -, same⟩ | ⟨-, same⟩ <;> simp [same]
  simp [opened]

@[simp] theorem onSuccess_state (breaker : CircuitBreaker) : breaker.onSuccess.state = .closed := rfl

@[simp] theorem onFailure_failureCount (config : CircuitConfig) (breaker : CircuitBreaker) (now : ℚ) :
    (breaker.onFailure config now).failureCount = breaker.failureCount + 1 := rfl

theorem onFailure_closed {config : CircuitConfig} {breaker : CircuitBreaker} {now : ℚ}
    (closed : (breaker.onFailure config now).state = .closed) :
    breaker.state = .closed ∧ breaker.failureCount + 1 < config.failureThreshold := by
  simp only [onFailure] at closed
  split at closed
  next => cases closed
  next still => exact ⟨closed, not_le.mp fun reached => still (.inl reached)⟩

theorem onFailure_not_halfOpen (config : CircuitConfig) (breaker : CircuitBreaker) (now : ℚ) :
    (breaker.onFailure config now).state ≠ .halfOpen := by
  simp only [onFailure]
  split
  next => simp
  next still => exact fun half => still (.inr half)

end CircuitBreaker

/-! ## The closed-form meaning of a history -/

/-- What one finished call adds to the history: only outcomes of the wrapped
function count, so a rejected call leaves no failure behind. -/
inductive Observed where
  | rejected
  | succeeded
  | failed (time : ℚ)
  | cancelled
  deriving DecidableEq, Repr

/-- The number of failures since the last success; the newest entry comes first. -/
def failuresSinceSuccess : List Observed → Nat
  | [] => 0
  | .failed _ :: older => failuresSinceSuccess older + 1
  | .succeeded :: _ => 0
  | .rejected :: older | .cancelled :: older => failuresSinceSuccess older

/-- The time of the latest failure, whether or not a success came after it. -/
def latestFailure : List Observed → Option ℚ
  | [] => none
  | .failed now :: _ => some now
  | .succeeded :: older | .rejected :: older | .cancelled :: older => latestFailure older

structure Invocation (α ε : Type) where
  admitted : ℚ
  func : Outcome α ε
  recorded : ℚ

def Called.observed (called : Called α ε) (recorded : ℚ) : Observed :=
  match called.result with
  | .circuitOpenError _ => .rejected
  | .ended (.returned _) => .succeeded
  | .ended (.raised _) => .failed recorded
  | .ended .cancelled => .cancelled

/-- The breaker and the history, newest first, after a sequence of calls. -/
def runCalls (config : CircuitConfig) :
    CircuitBreaker × List Observed → List (Invocation α ε) → CircuitBreaker × List Observed
  | state, [] => state
  | (breaker, history), next :: rest =>
    let called := breaker.call config next.admitted next.func next.recorded
    runCalls config (called.breaker, called.observed next.recorded :: history) rest

/-- The clock never runs backwards, neither inside a call nor between two calls. -/
def Sequential : ℚ → List (Invocation α ε) → Prop
  | _, [] => True
  | clock, next :: rest =>
    clock ≤ next.admitted ∧ next.admitted ≤ next.recorded ∧ Sequential next.recorded rest

/-- What the breaker's three fields say about the history that produced them. -/
structure Represents (config : CircuitConfig) (breaker : CircuitBreaker) (history : List Observed)
    (clock : ℚ) : Prop where
  count : breaker.failureCount = failuresSinceSuccess history
  time : 0 < breaker.failureCount → breaker.lastFailureTime = latestFailure history
  known : 0 < breaker.failureCount → breaker.lastFailureTime.isSome
  closed : breaker.state = .closed ↔ breaker.failureCount < config.failureThreshold
  halfOpen : breaker.state = .halfOpen → config.recoveryTimeout ≤ clock - breaker.lastFailure

namespace Represents

variable {config : CircuitConfig} {breaker : CircuitBreaker} {history : List Observed} {clock : ℚ}

theorem reset (positive : 1 ≤ config.failureThreshold) (closed : breaker.state = .closed)
    (none : breaker.failureCount = 0) (since : failuresSinceSuccess history = 0) (clock : ℚ) :
    Represents config breaker history clock where
  count := none.trans since.symm
  time := fun counted => absurd none counted.ne'
  known := fun counted => absurd none counted.ne'
  closed := iff_of_true closed (by omega)
  halfOpen := fun half => by rw [closed] at half; cases half

theorem initial (positive : 1 ≤ config.failureThreshold) (clock : ℚ) : Represents config .initial [] clock :=
  reset positive rfl rfl rfl clock

theorem later (represents : Represents config breaker history clock) {now : ℚ} (order : clock ≤ now) :
    Represents config breaker history now :=
  { represents with halfOpen := fun half => by have := represents.halfOpen half; linarith }

/-- The gate changes the state only where the history allows a probe. -/
theorem gate (represents : Represents config breaker history clock) {now : ℚ} (order : clock ≤ now) :
    Represents config (breaker.maybeTransitionToHalfOpen config now) history now := by
  rcases breaker.maybeTransitionToHalfOpen_cases config now with
    ⟨opened, elapsed, same⟩ | ⟨opened, -, same⟩ | ⟨-, same⟩
  · -- A probe is let through, and the fields but the state stay as they are.
    rw [same]
    refine ⟨represents.count, represents.time, represents.known, ?_, fun _ => elapsed⟩
    have closed := represents.closed
    rw [opened] at closed
    simpa using closed
  · rw [same]; exact represents.later order
  · rw [same]; exact represents.later order

theorem failure (represents : Represents config breaker history clock) (now : ℚ) :
    Represents config (breaker.onFailure config now) (.failed now :: history) now where
  count := by simp [failuresSinceSuccess, represents.count]
  time := fun _ => rfl
  known := fun _ => rfl
  closed := by
    constructor
    · exact fun closed => (CircuitBreaker.onFailure_closed closed).2
    · intro below
      have counted : breaker.failureCount < config.failureThreshold := by
        rw [CircuitBreaker.onFailure_failureCount] at below; omega
      -- With too few failures the breaker was CLOSED, and neither reason to open applies.
      have closed := represents.closed.mpr counted
      have still : ¬ (config.failureThreshold ≤ breaker.failureCount + 1 ∨ breaker.state = .halfOpen) := by
        simpa [closed] using below
      simp only [CircuitBreaker.onFailure, if_neg still]
      exact closed
  halfOpen := fun half => absurd half (breaker.onFailure_not_halfOpen config now)

theorem success (positive : 1 ≤ config.failureThreshold) (breaker : CircuitBreaker)
    (history : List Observed) (clock : ℚ) : Represents config breaker.onSuccess (.succeeded :: history) clock :=
  reset positive rfl rfl rfl clock

theorem uncounted (represents : Represents config breaker history clock) {entry : Observed}
    (uncounted : entry = .rejected ∨ entry = .cancelled) :
    Represents config breaker (entry :: history) clock := by
  rcases uncounted with rfl | rfl <;>
    exact ⟨represents.count, represents.time, represents.known, represents.closed, represents.halfOpen⟩

theorem call (positive : 1 ≤ config.failureThreshold)
    (represents : Represents config breaker history clock) {next : Invocation α ε}
    (admitted : clock ≤ next.admitted) (recorded : next.admitted ≤ next.recorded) :
    Represents config (breaker.call config next.admitted next.func next.recorded).breaker
      ((breaker.call config next.admitted next.func next.recorded).observed next.recorded :: history)
      next.recorded := by
  have gate := represents.gate admitted
  unfold CircuitBreaker.call
  dsimp only
  split
  next => exact (gate.later recorded).uncounted (.inl rfl)
  next =>
    cases next.func with
    | raised _ => exact gate.failure next.recorded
    | returned _ =>
      exact success positive (breaker.maybeTransitionToHalfOpen config next.admitted) history _
    | cancelled => exact (gate.later recorded).uncounted (.inr rfl)

theorem gate_open (represents : Represents config breaker history clock)
    (positive : 1 ≤ config.failureThreshold) {now : ℚ} (order : clock ≤ now) :
    (breaker.maybeTransitionToHalfOpen config now).state = .open ↔
      config.failureThreshold ≤ failuresSinceSuccess history ∧
      ∃ last, latestFailure history = some last ∧ now - last < config.recoveryTimeout := by
  rw [CircuitBreaker.gate_open_iff, ← represents.count]
  constructor
  · rintro ⟨opened, waiting⟩
    have reached : config.failureThreshold ≤ breaker.failureCount := by
      by_contra below
      have closed := represents.closed.mpr (not_le.mp below)
      rw [opened] at closed
      cases closed
    obtain ⟨last, known⟩ := Option.isSome_iff_exists.mp (represents.known (by omega))
    refine ⟨reached, last, ?_, ?_⟩
    · rw [← represents.time (by omega), known]
    · simpa [CircuitBreaker.lastFailure, known] using waiting
  · rintro ⟨reached, last, latest, waiting⟩
    have known : breaker.lastFailureTime = some last := by rw [represents.time (by omega), latest]
    have since : breaker.lastFailure = last := by simp [CircuitBreaker.lastFailure, known]
    refine ⟨?_, by rwa [since]⟩
    cases state : breaker.state with
    | «open» => rfl
    | closed => exact absurd (represents.closed.mp state) (by omega)
    -- HALF_OPEN means that the timeout has elapsed.
    | halfOpen =>
      have elapsed := represents.halfOpen state
      rw [since] at elapsed
      linarith

end Represents

/-- The readings of a run of calls, as far as the next one needs them. -/
theorem represents_runCalls {config : CircuitConfig} (positive : 1 ≤ config.failureThreshold)
    {breaker : CircuitBreaker} {history : List Observed} {clock : ℚ}
    (represents : Represents config breaker history clock)
    (calls : List (Invocation α ε)) (next : Invocation α ε)
    (sequential : Sequential clock (calls ++ [next])) :
    ∃ final, final ≤ next.admitted ∧
      Represents config (runCalls config (breaker, history) calls).1
        (runCalls config (breaker, history) calls).2 final := by
  -- The clock of the invariant is the reading that ended the call before.
  induction calls generalizing breaker history clock with
  | nil => exact ⟨clock, sequential.1, represents⟩
  | cons first rest ih =>
    obtain ⟨admitted, recorded, tail⟩ := sequential
    exact ih (represents.call positive admitted recorded) tail

theorem CircuitBreaker.call_result (config : CircuitConfig) (breaker : CircuitBreaker)
    (admitted recorded : ℚ) (func : Outcome α ε) :
    ((breaker.maybeTransitionToHalfOpen config admitted).state = .open ∧
      (breaker.call config admitted func recorded).result =
        .circuitOpenError (circuitOpenMessage config.name) ∧
      (breaker.call config admitted func recorded).invoked = false) ∨
    ((breaker.maybeTransitionToHalfOpen config admitted).state ≠ .open ∧
      (breaker.call config admitted func recorded).result = .ended func ∧
      (breaker.call config admitted func recorded).invoked = true) := by
  unfold CircuitBreaker.call
  dsimp only
  split
  next shut => exact .inl ⟨shut, rfl, rfl⟩
  next admittedCall => cases func <;> exact .inr ⟨admittedCall, rfl, rfl⟩

/-- For every sequence of calls that do not overlap, the next call is rejected,
without invoking its function, exactly when the failures since the last success
reach the threshold and the latest of them is more recent than the timeout;
otherwise it ends exactly as its function does. -/
theorem call_rejected_iff (config : CircuitConfig) (positive : 1 ≤ config.failureThreshold)
    (clock : ℚ) (calls : List (Invocation α ε)) (next : Invocation α ε)
    (sequential : Sequential clock (calls ++ [next])) :
    let (breaker, history) := runCalls config (.initial, []) calls
    let called := breaker.call config next.admitted next.func next.recorded
    let shut := config.failureThreshold ≤ failuresSinceSuccess history ∧
      ∃ last, latestFailure history = some last ∧ next.admitted - last < config.recoveryTimeout
    (called.result = .circuitOpenError (circuitOpenMessage config.name) ↔ shut) ∧
    (shut → called.invoked = false) ∧
    (¬ shut → called.invoked = true ∧ called.result = .ended next.func) := by
  obtain ⟨final, order, represents⟩ :=
    represents_runCalls positive (.initial positive clock) calls next sequential
  have gate := represents.gate_open positive order
  rcases CircuitBreaker.call_result config (runCalls config (.initial, []) calls).1
      next.admitted next.recorded next.func with ⟨shut, result, invoked⟩ | ⟨passed, result, invoked⟩
  · have closedForm := gate.mp shut
    exact ⟨⟨fun _ => closedForm, fun _ => result⟩, fun _ => invoked, fun other => absurd closedForm other⟩
  · have closedForm := fun shut => passed (gate.mpr shut)
    refine ⟨⟨fun rejected => ?_, fun shut => absurd shut closedForm⟩,
      fun shut => absurd shut closedForm, fun _ => ⟨invoked, result⟩⟩
    rw [result] at rejected
    cases rejected

/-- Two failures at threshold two: one second after the second of them a call is rejected. -/
theorem call_rejected_after_two_failures :
    let config : CircuitConfig := ⟨"fetch", 2, 10⟩
    let calls : List (Invocation Nat String) := [⟨0, .raised "timeout", 1⟩, ⟨2, .raised "timeout", 3⟩]
    ((runCalls config (.initial, []) calls).1.call config 4 (.returned 7 : Outcome Nat String) 5).result =
      .circuitOpenError (circuitOpenMessage "fetch") :=
  (call_rejected_iff ⟨"fetch", 2, 10⟩ (by decide) 0
    [⟨0, .raised "timeout", 1⟩, ⟨2, .raised "timeout", 3⟩] ⟨4, .returned 7, 5⟩
    (by norm_num [Sequential])).1.mpr ⟨by decide +kernel, 3, by decide +kernel, by norm_num⟩

end DataPipeline.Platform
