import DataPipeline.Library.Execution
import DataPipeline.Platform.CircuitBreaker

/-! Overlapping calls of one circuit breaker.

A call is interleaved with others at the await of its function and where it
takes the lock. Both critical sections run without an await, so admission and
recording are each one step. A call may also be cancelled while its function
runs or while it waits for the lock to record its outcome.
-/

set_option autoImplicit false

namespace DataPipeline.Platform.CircuitConcurrency

open Execution

inductive Phase where
  | idle
  | running
  | succeeded
  | failed
  | finished
  deriving DecidableEq, Repr

structure World where
  breaker : CircuitBreaker
  clock : ℚ
  calls : Nat → Phase

/-- No call has arrived yet. -/
def World.initial (clock : ℚ) : World := ⟨.initial, clock, fun _ => .idle⟩

inductive Label where
  | enter (call : Nat) (now : ℚ)
  | settle (call : Nat) (func : Outcome Unit Unit)
  | record (call : Nat) (now : ℚ)
  | abandon (call : Nat)
  deriving DecidableEq

def step (config : CircuitConfig) (world : World) : Label → Option World
  | .enter call now =>
    if world.calls call = .idle ∧ world.clock ≤ now then
      -- A call that is turned away has ended before its function starts.
      let gate := world.breaker.maybeTransitionToHalfOpen config now
      some { breaker := gate, clock := now
             calls := Function.update world.calls call
               (if gate.state = .open then .finished else .running) }
    else none
  -- The outcome is known here and recorded later, when the lock is free.
  | .settle call func =>
    if world.calls call = .running then
      some { world with calls := Function.update world.calls call <| match func with
        | .returned _ => .succeeded
        | .raised _ => .failed
        | .cancelled => .finished }
    else none
  | .record call now =>
    if world.clock ≤ now then
      match world.calls call with
      | .succeeded => some { breaker := world.breaker.onSuccess, clock := now
                             calls := Function.update world.calls call .finished }
      | .failed => some { breaker := world.breaker.onFailure config now, clock := now
                          calls := Function.update world.calls call .finished }
      | .idle | .running | .finished => none
    else none
  -- Cancelled while it waits for the lock: the outcome is never recorded.
  | .abandon call =>
    if world.calls call = .succeeded ∨ world.calls call = .failed then
      some { world with calls := Function.update world.calls call .finished }
    else none

def machine (config : CircuitConfig) : Machine World Label := ⟨step config⟩

def recordedBy (before : World) : Label → Option Observed
  | .record call now =>
    match before.calls call with
    | .succeeded => some .succeeded
    | .failed => some (.failed now)
    | .idle | .running | .finished => none
  | .enter _ _ | .settle _ _ | .abandon _ => none

def recorded (config : CircuitConfig) (start : World) (labels : List Label) : List Observed :=
  (machine config).observe (fun history before label _ => (recordedBy before label).toList ++ history)
    [] start labels

variable {config : CircuitConfig} {before after : World}

theorem enter_step {call : Nat} {now : ℚ}
    (stepped : (machine config).step before (.enter call now) = some after) :
    before.calls call = .idle ∧ before.clock ≤ now ∧
      after = { breaker := before.breaker.maybeTransitionToHalfOpen config now, clock := now
                calls := Function.update before.calls call
                  (if (before.breaker.maybeTransitionToHalfOpen config now).state = .open
                    then .finished else .running) } := by
  simp only [machine, step] at stepped
  split at stepped
  next enabled => cases stepped; exact ⟨enabled.1, enabled.2, rfl⟩
  next => cases stepped

theorem settle_step {call : Nat} {func : Outcome Unit Unit}
    (stepped : step config before (.settle call func) = some after) :
    before.calls call = .running ∧ ∃ phase,
      after = { before with calls := Function.update before.calls call phase } ∧
      ((func = .returned () ∧ phase = .succeeded) ∨ (func = .raised () ∧ phase = .failed) ∨
        (func = .cancelled ∧ phase = .finished)) := by
  simp only [step, Option.ite_none_right_eq_some, Option.some.injEq] at stepped
  obtain ⟨running, rfl⟩ := stepped
  refine ⟨running, _, rfl, ?_⟩
  cases func with
  | returned => exact .inl ⟨rfl, rfl⟩
  | raised => exact .inr (.inl ⟨rfl, rfl⟩)
  | cancelled => exact .inr (.inr ⟨rfl, rfl⟩)

theorem record_step {call : Nat} {now : ℚ} (stepped : step config before (.record call now) = some after) :
    (before.calls call = .succeeded ∨ before.calls call = .failed) ∧
      after.calls = Function.update before.calls call .finished := by
  simp only [step, Option.ite_none_right_eq_some] at stepped
  obtain ⟨-, stepped⟩ := stepped
  cases phase : before.calls call with
  | succeeded =>
    rw [phase] at stepped
    cases stepped
    exact ⟨.inl rfl, rfl⟩
  | failed =>
    rw [phase] at stepped
    cases stepped
    exact ⟨.inr rfl, rfl⟩
  | idle | running | finished => rw [phase] at stepped; cases stepped

theorem abandon_step {call : Nat} (stepped : step config before (.abandon call) = some after) :
    (before.calls call = .succeeded ∨ before.calls call = .failed) ∧
      after = { before with calls := Function.update before.calls call .finished } := by
  simp only [step, Option.ite_none_right_eq_some, Option.some.injEq] at stepped
  exact ⟨stepped.1, stepped.2.symm⟩

/-- All a step can do to the breaker and the clock. -/
theorem step_cases {label : Label} (stepped : (machine config).step before label = some after) :
    (∃ call now, label = .enter call now ∧ before.clock ≤ now ∧
      after.breaker = before.breaker.maybeTransitionToHalfOpen config now ∧ after.clock = now) ∨
    (∃ call now, label = .record call now ∧ before.clock ≤ now ∧ before.calls call = .succeeded ∧
      after.breaker = before.breaker.onSuccess ∧ after.clock = now) ∨
    (∃ call now, label = .record call now ∧ before.clock ≤ now ∧ before.calls call = .failed ∧
      after.breaker = before.breaker.onFailure config now ∧ after.clock = now) ∨
    (after.breaker = before.breaker ∧ after.clock = before.clock ∧ recordedBy before label = none) := by
  cases label with
  | enter call now =>
    obtain ⟨-, order, rfl⟩ := enter_step stepped
    exact .inl ⟨call, now, rfl, order, rfl, rfl⟩
  | settle call func =>
    simp only [machine, step] at stepped
    split at stepped
    next => cases stepped; exact .inr (.inr (.inr ⟨rfl, rfl, rfl⟩))
    next => cases stepped
  | record call now =>
    simp only [machine, step] at stepped
    split at stepped
    next order =>
      cases phase : before.calls call with
      | succeeded =>
        rw [phase] at stepped; cases stepped
        exact .inr (.inl ⟨call, now, rfl, order, phase, rfl, rfl⟩)
      | failed =>
        rw [phase] at stepped; cases stepped
        exact .inr (.inr (.inl ⟨call, now, rfl, order, phase, rfl, rfl⟩))
      | idle | running | finished => rw [phase] at stepped; cases stepped
    next => cases stepped
  | abandon call =>
    simp only [machine, step] at stepped
    split at stepped
    next => cases stepped; exact .inr (.inr (.inr ⟨rfl, rfl, rfl⟩))
    next => cases stepped

/-! ## Openings and closings -/

def Opens (before after : World) : Prop :=
  before.breaker.state ≠ .open ∧ after.breaker.state = .open

def Closes (before after : World) : Prop :=
  before.breaker.state ≠ .closed ∧ after.breaker.state = .closed

/-- The call was admitted somewhere in the run, and no step since opened the breaker. -/
def AdmittedSinceOpening (config : CircuitConfig) (start : World) (labels : List Label)
    (call : Nat) : Prop :=
  ∃ earlier now later admission admitted, labels = earlier ++ .enter call now :: later ∧
    (machine config).run start earlier = some admission ∧
    (machine config).step admission (.enter call now) = some admitted ∧
    admitted.calls call = .running ∧
    (machine config).Every admitted later fun _ before _ after => ¬ Opens before after

/-- The call was admitted after an opening of the breaker, the latest one there
is, at a time when the recovery timeout had elapsed since the last failure. -/
def ProbeSinceOpening (config : CircuitConfig) (start : World) (labels : List Label)
    (call : Nat) : Prop :=
  ∃ earlier now later admission admitted, labels = earlier ++ .enter call now :: later ∧
    (machine config).run start earlier = some admission ∧
    (machine config).step admission (.enter call now) = some admitted ∧
    admitted.calls call = .running ∧
    (∃ first opening rest before after, earlier = first ++ opening :: rest ∧
      (machine config).run start first = some before ∧
      (machine config).step before opening = some after ∧ Opens before after) ∧
    admission.breaker.state ≠ .closed ∧
    config.recoveryTimeout ≤ now - admission.breaker.lastFailure ∧
    (machine config).Every admitted later fun _ before _ after => ¬ Opens before after

/-- A step that closes the breaker records the success of a probe. -/
def ClosedByProbe (config : CircuitConfig) (start : World) (earlier : List Label)
    (before : World) (label : Label) (after : World) : Prop :=
  Closes before after → ∃ call now, label = .record call now ∧ before.calls call = .succeeded ∧
    ProbeSinceOpening config start earlier call

/-- A success recorded while the breaker is OPEN or HALF_OPEN is that of a call
admitted since the latest opening. -/
def TimelySuccess (config : CircuitConfig) (start : World) (earlier : List Label)
    (before : World) (label : Label) (_ : World) : Prop :=
  ∀ call now, label = .record call now → before.calls call = .succeeded →
    before.breaker.state ≠ .closed → AdmittedSinceOpening config start earlier call

theorem closes_cases {label : Label} (stepped : (machine config).step before label = some after)
    (closes : Closes before after) :
    ∃ call now, label = .record call now ∧ before.calls call = .succeeded := by
  rcases step_cases stepped with
    ⟨call, now, rfl, -, same, -⟩ | ⟨call, now, rfl, -, phase, -⟩ | ⟨call, now, rfl, -, -, same, -⟩ |
    ⟨same, -⟩
  · have closed := closes.2
    rw [same] at closed
    exact absurd ((CircuitBreaker.gate_closed_iff config before.breaker now).mp closed) closes.1
  · exact ⟨call, now, rfl, phase⟩
  · have closed := closes.2
    rw [same] at closed
    exact absurd (CircuitBreaker.onFailure_closed closed).1 closes.1
  · have closed := closes.2
    rw [same] at closed
    exact absurd closed closes.1

theorem success_step {call : Nat} {now : ℚ}
    (stepped : (machine config).step before (.record call now) = some after)
    (phase : before.calls call = .succeeded) : after.breaker.state = .closed := by
  simp only [machine, step, phase] at stepped
  split at stepped
  next => cases stepped; rfl
  next => cases stepped

theorem closed_step {label : Label} (stepped : (machine config).step before label = some after)
    (closed : before.breaker.state = .closed) (quiet : ¬ Opens before after) :
    after.breaker.state = .closed := by
  rcases step_cases stepped with
    ⟨call, now, rfl, -, same, -⟩ | ⟨call, now, rfl, -, -, same, -⟩ | ⟨call, now, rfl, -, -, same, -⟩ |
    ⟨same, -⟩
  · rw [same]
    exact (CircuitBreaker.gate_closed_iff config before.breaker now).mpr closed
  · rw [same, CircuitBreaker.onSuccess_state]
  · cases state : after.breaker.state with
    | closed => rfl
    | «open» => exact absurd ⟨by simp [closed], state⟩ quiet
    | halfOpen =>
      rw [same] at state
      exact absurd state (before.breaker.onFailure_not_halfOpen config now)
  · rw [same, closed]

theorem closed_of_quiet {start final : World} {labels : List Label}
    (ran : (machine config).run start labels = some final) (closed : start.breaker.state = .closed)
    (quiet : (machine config).Every start labels fun _ before _ after => ¬ Opens before after) :
    final.breaker.state = .closed :=
  Machine.invariant (fun world => world.breaker.state = .closed) closed quiet
    (fun _ _ _ _ held calm stepped => closed_step stepped held calm) ran

theorem opening_of_not_closed {clock : ℚ} {final : World} {labels : List Label}
    (ran : (machine config).run (.initial clock) labels = some final)
    (notClosed : final.breaker.state ≠ .closed) :
    ∃ first opening rest before after, labels = first ++ opening :: rest ∧
      (machine config).run (.initial clock) first = some before ∧
      (machine config).step before opening = some after ∧ Opens before after := by
  by_contra never
  apply notClosed
  apply closed_of_quiet ran rfl
  intro first opening rest before after split ran stepped opens
  exact never ⟨first, opening, rest, before, after, split, ran, stepped, opens⟩

/-- While the breaker is HALF_OPEN its timeout has elapsed: the clock only
moves on and the time of the last failure stands still. -/
def HalfOpenElapsed (config : CircuitConfig) (world : World) : Prop :=
  world.breaker.state = .halfOpen → config.recoveryTimeout ≤ world.clock - world.breaker.lastFailure

theorem halfOpenElapsed_step {label : Label} (held : HalfOpenElapsed config before)
    (stepped : (machine config).step before label = some after) : HalfOpenElapsed config after := by
  intro half
  rcases step_cases stepped with
    ⟨call, now, rfl, order, gate, clock⟩ | ⟨call, now, rfl, -, -, same, -⟩ |
    ⟨call, now, rfl, -, -, same, -⟩ | ⟨same, clock, -⟩
  · rw [gate] at half
    rw [gate, clock]
    rcases before.breaker.maybeTransitionToHalfOpen_cases config now with
      ⟨-, elapsed, same⟩ | ⟨opened, -, same⟩ | ⟨-, same⟩
    · rw [same]; exact elapsed
    · rw [same, opened] at half; cases half
    · rw [same] at half ⊢
      have elapsed := held half
      linarith
  · simp [same] at half
  · rw [same] at half
    exact absurd half (before.breaker.onFailure_not_halfOpen config now)
  · rw [same] at half
    rw [same, clock]
    exact held half

/-- An admission that no opening has followed is a probe as soon as the breaker
is still not CLOSED. -/
theorem probe_of_admitted {clock : ℚ} {labels : List Label} {call : Nat} {current : World}
    (ran : (machine config).run (.initial clock) labels = some current)
    (notClosed : current.breaker.state ≠ .closed)
    (admitted : AdmittedSinceOpening config (.initial clock) labels call) :
    ProbeSinceOpening config (.initial clock) labels call := by
  obtain ⟨earlier, now, later, admission, world, rfl, head, stepped, running, quiet⟩ := admitted
  -- The rest of the run goes on from the state the admission left.
  have tail : (machine config).run world later = some current := by
    obtain ⟨middle, headRan, rest⟩ := Machine.run_append.mp ran
    obtain ⟨next, admits, tail⟩ := Machine.run_cons.mp rest
    rw [head] at headRan
    cases headRan
    rw [stepped] at admits
    cases admits
    exact tail
  -- A breaker that no step opened and that is not CLOSED now never was since.
  have worldOpen : world.breaker.state ≠ .closed :=
    fun closed => notClosed (closed_of_quiet tail closed quiet)
  have elapsedBefore : HalfOpenElapsed config admission :=
    Machine.invariant_of_step (HalfOpenElapsed config) (fun half => by cases half)
      (fun _ _ _ => halfOpenElapsed_step) head
  obtain ⟨-, order, same⟩ := enter_step stepped
  have admissionOpen : admission.breaker.state ≠ .closed := by
    intro closed
    apply worldOpen
    rw [same]
    exact (CircuitBreaker.gate_closed_iff config admission.breaker now).mpr closed
  refine ⟨earlier, now, later, admission, world, rfl, head, stepped, running,
    opening_of_not_closed head admissionOpen, admissionOpen, ?_, quiet⟩
  rcases admission.breaker.maybeTransitionToHalfOpen_cases config now with
    ⟨-, elapsed, -⟩ | ⟨opened, -, gate⟩ | ⟨notOpen, -⟩
  · exact elapsed
  · simp [same, gate, opened] at running
  -- An earlier probe has passed the gate, and the timeout with it.
  · have half : admission.breaker.state = .halfOpen := by
      cases state : admission.breaker.state with
      | closed => exact absurd state admissionOpen
      | «open» => exact absurd state notOpen
      | halfOpen => rfl
    have elapsed := elapsedBefore half
    linarith

/-- In every run, every closing is due to a probe admitted since the latest
opening exactly if no call admitted before that opening has its success
recorded while the breaker is OPEN or HALF_OPEN. -/
theorem closed_by_probe_iff (config : CircuitConfig) (clock : ℚ) (labels : List Label) :
    (machine config).Every (.initial clock) labels (ClosedByProbe config (.initial clock)) ↔
      (machine config).Every (.initial clock) labels (TimelySuccess config (.initial clock)) := by
  constructor
  · intro every
    refine every.mono ?_
    intro earlier before label after ran stepped claim call now same phase notClosed
    subst same
    obtain ⟨other, time, same, -, probe⟩ := claim ⟨notClosed, success_step stepped phase⟩
    cases same
    obtain ⟨first, time, later, admission, admitted, split, head, admits, running, -, -, -, quiet⟩ := probe
    exact ⟨first, time, later, admission, admitted, split, head, admits, running, quiet⟩
  · intro every
    refine every.mono ?_
    intro earlier before label after ran stepped claim closes
    obtain ⟨call, now, rfl, phase⟩ := closes_cases stepped closes
    exact ⟨call, now, rfl, phase, probe_of_admitted ran closes.1 (claim call now rfl phase closes.1)⟩

/-- Call 0 is admitted while the breaker is CLOSED, call 1 opens it, and call 0
succeeds one second later, nine seconds before any probe is due. -/
def lateSuccess : List Label :=
  [.enter 0 0, .enter 1 0, .settle 1 (.raised ()), .record 1 1, .settle 0 (.returned ())]

theorem late_success_closes :
    ¬ (machine ⟨"fetch", 1, 10⟩).Every (.initial 0) (lateSuccess ++ [.record 0 2])
      (ClosedByProbe ⟨"fetch", 1, 10⟩ (.initial 0)) := by
  intro every
  have closes : ((machine ⟨"fetch", 1, 10⟩).run (.initial 0) lateSuccess).any (fun before =>
      before.breaker.state = .open ∧ ((machine ⟨"fetch", 1, 10⟩).step before (.record 0 2)).any
        fun after => after.breaker.state = .closed) := by decide +kernel
  obtain ⟨before, ran, closes⟩ := (Option.any_eq_true _ _).mp closes
  obtain ⟨opened, closes⟩ := of_decide_eq_true closes
  obtain ⟨after, stepped, closed⟩ := (Option.any_eq_true _ _).mp closes
  have notClosed : before.breaker.state ≠ .closed := by simp [opened]
  obtain ⟨call, now, same, -, probe⟩ :=
    every lateSuccess (.record 0 2) [] before after rfl ran stepped ⟨notClosed, of_decide_eq_true closed⟩
  cases same
  -- Call 0 enters first of all, and nothing has opened the breaker by then.
  obtain ⟨earlier, time, later, admission, -, split, head, -, -, -, admissionOpen, -⟩ := probe
  cases earlier with
  | nil => cases head; exact admissionOpen rfl
  | cons first earlier =>
    simp only [lateSuccess, List.cons_append, List.cons.injEq] at split
    have member : Label.enter 0 time ∈ earlier ++ .enter 0 time :: later := by simp
    rw [← split.2] at member
    simp at member

/-! ## What the fields say about the recorded outcomes -/

/-- A step keeps the representation, in whatever order the calls record. -/
theorem represents_step (positive : 1 ≤ config.failureThreshold) {history : List Observed} {label : Label}
    (represents : Represents config before.breaker history before.clock)
    (stepped : (machine config).step before label = some after) :
    Represents config after.breaker ((recordedBy before label).toList ++ history) after.clock := by
  rcases step_cases stepped with
    ⟨call, now, rfl, order, gate, clock⟩ | ⟨call, now, rfl, -, phase, same, clock⟩ |
    ⟨call, now, rfl, -, phase, same, clock⟩ | ⟨same, clock, unrecorded⟩
  · rw [gate, clock]
    exact represents.gate order
  · simp only [recordedBy, phase, Option.toList_some, List.singleton_append]
    rw [same, clock]
    exact Represents.success positive before.breaker history now
  -- The count goes on from its old value, also where the breaker is OPEN or HALF_OPEN.
  · simp only [recordedBy, phase, Option.toList_some, List.singleton_append]
    rw [same, clock]
    exact represents.failure now
  · rw [same, clock, unrecorded]
    exact represents

theorem represents_run (positive : 1 ≤ config.failureThreshold) {clock : ℚ} {labels : List Label} {world : World}
    (ran : (machine config).run (.initial clock) labels = some world) :
    Represents config world.breaker (recorded config (.initial clock) labels) world.clock :=
  Machine.observed_of_step (fun world history => Represents config world.breaker history world.clock)
    (.initial positive clock) (fun _ _ _ _ represents stepped => represents_step positive represents stepped) ran

/-- A CLOSED breaker has counted fewer failures than the threshold; any other
has counted as many at least, and knows when the latest failure was recorded. -/
def CountsFailures (config : CircuitConfig) (breaker : CircuitBreaker) (history : List Observed) : Prop :=
  (breaker.state = .closed ∧ breaker.failureCount < config.failureThreshold) ∨
  ((breaker.state = .open ∨ breaker.state = .halfOpen) ∧ config.failureThreshold ≤ breaker.failureCount ∧
    ∃ last, breaker.lastFailureTime = some last ∧ latestFailure history = some last)

theorem countsFailures_of_represents (positive : 1 ≤ config.failureThreshold) {breaker : CircuitBreaker}
    {history : List Observed} {clock : ℚ} (represents : Represents config breaker history clock) :
    CountsFailures config breaker history := by
  by_cases closed : breaker.state = .closed
  · exact .inl ⟨closed, represents.closed.mp closed⟩
  · have reached : config.failureThreshold ≤ breaker.failureCount := not_lt.mp (mt represents.closed.mpr closed)
    obtain ⟨last, known⟩ := Option.isSome_iff_exists.mp (represents.known (by omega))
    refine .inr ⟨?_, reached, last, known, by rw [← represents.time (by omega), known]⟩
    cases state : breaker.state with
    | closed => exact absurd state closed
    | «open» => exact .inl rfl
    | halfOpen => exact .inr rfl

/-- In every reachable state the three fields belong together as a CLOSED
breaker or one that is not, and a call is admitted out of OPEN only when the
timeout has elapsed since the latest recorded failure, whose time is known. -/
theorem counts_failures (config : CircuitConfig) (positive : 1 ≤ config.failureThreshold) (clock : ℚ)
    (labels : List Label) (world : World)
    (ran : (machine config).run (.initial clock) labels = some world) :
    CountsFailures config world.breaker (recorded config (.initial clock) labels) ∧
    (world.breaker.state = .open → world.breaker.lastFailureTime ≠ none) ∧
    ∀ call now admitted, world.breaker.state = .open →
      (machine config).step world (.enter call now) = some admitted → admitted.calls call = .running →
      ∃ last, latestFailure (recorded config (.initial clock) labels) = some last ∧
        config.recoveryTimeout ≤ now - last := by
  have counts := countsFailures_of_represents positive (represents_run positive ran)
  have latest : world.breaker.state = .open → ∃ last, world.breaker.lastFailureTime = some last ∧
      latestFailure (recorded config (.initial clock) labels) = some last := by
    intro opened
    rcases counts with ⟨closed, -⟩ | ⟨-, -, known⟩
    · rw [opened] at closed
      cases closed
    · exact known
  refine ⟨counts, fun opened => ?_, fun call now admitted opened stepped running => ?_⟩
  · obtain ⟨last, known, -⟩ := latest opened
    rw [known]
    exact Option.some_ne_none last
  · obtain ⟨last, known, newest⟩ := latest opened
    refine ⟨last, newest, ?_⟩
    obtain ⟨-, -, rfl⟩ := enter_step stepped
    -- A call that was turned away would not be running.
    have passed : ¬ (world.breaker.maybeTransitionToHalfOpen config now).state = .open := by
      intro shut
      simp [shut] at running
    rw [CircuitBreaker.gate_open_iff, CircuitBreaker.lastFailure, known] at passed
    exact not_lt.mp fun waiting => passed ⟨opened, waiting⟩

/-- Call 1 fails late: its failure is recorded while the breaker is OPEN and
moves the time of the latest failure on. -/
def lateFailure : List Label :=
  [.enter 0 0, .enter 1 0, .settle 0 (.raised ()), .record 0 1, .settle 1 (.raised ()), .record 1 2]

theorem late_failure_counts :
    ∃ world, (machine ⟨"fetch", 1, 10⟩).run (.initial 0) lateFailure = some world ∧
      world.breaker = ⟨.open, 2, some 2⟩ ∧
      CountsFailures ⟨"fetch", 1, 10⟩ world.breaker (recorded ⟨"fetch", 1, 10⟩ (.initial 0) lateFailure) := by
  have ends : ((machine ⟨"fetch", 1, 10⟩).run (.initial 0) lateFailure).any fun world =>
      world.breaker = ⟨.open, 2, some 2⟩ := by decide +kernel
  obtain ⟨world, ran, ends⟩ := (Option.any_eq_true _ _).mp ends
  exact ⟨world, ran, of_decide_eq_true ends,
    (counts_failures ⟨"fetch", 1, 10⟩ (by decide) 0 lateFailure world ran).1⟩

end DataPipeline.Platform.CircuitConcurrency
