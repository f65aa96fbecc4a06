import DataPipeline.Library.Execution
import DataPipeline.Ingestor.Schemas
import DataPipeline.Platform.JobTypes

/-! The sessions of scheduled jobs: `wrap_job_handler` of `ingestor/core/handlers.py`
with the `get_db` of `ingestor/database.py` as its factory.

`get_db` is an async generator function, so a call of it runs none of its body.
The session is opened when somebody advances the generator, and closed when
somebody advances it again or closes it.
-/

set_option autoImplicit false

namespace DataPipeline.Ingestor.JobSessions

open Calendar Execution Platform

/-- A generator of `get_db`: not yet advanced, at its `yield`, or at its end. -/
inductive Generator where
  | created
  | suspended (session : Nat)
  | finished
  deriving DecidableEq

inductive Object where
  | session (isOpen : Bool)
  | generator (state : Generator)
  deriving DecidableEq

/-- Objects are referred to by their positions. -/
abbrev Heap := List Object

/-- What can be done to an object: `anext` and `aclose` of a generator, `close` of a session. -/
inductive Operation where
  | anext
  | aclose
  | close
  deriving DecidableEq

namespace Heap

def allocate (heap : Heap) (object : Object) : Heap × Nat := (heap ++ [object], heap.length)

/-- `AsyncSession.close`, which is also how `async with` leaves a session. -/
def close (heap : Heap) (session : Nat) : Heap :=
  match heap[session]? with
  | some (.session _) => heap.set session (.session false)
  | some (.generator _) | none => heap

def operate (heap : Heap) (object : Nat) (operation : Operation) : Heap :=
  match heap[object]?, operation with
  | some (.session _), .close => heap.close object
  | some (.generator .created), .anext =>
    let (heap, session) := heap.allocate (.session true)
    heap.set object (.generator (.suspended session))
  | some (.generator (.suspended session)), .anext | some (.generator (.suspended session)), .aclose =>
    (heap.close session).set object (.generator .finished)
  | some (.generator .created), .aclose => heap.set object (.generator .finished)
  | _, _ => heap

end Heap

/-- `get_db()`, which returns a generator and no session. -/
def getDb (heap : Heap) : Heap × Nat := heap.allocate (.generator .created)

/-! ## The wrapper -/

/-- How the awaited handler ends. A `TimeoutError` may come from `wait_for` or
from the handler itself. -/
inductive HandlerOutcome (Result : Type) where
  | returned (result : Result)
  | timedOut
  | raised (isTimeoutError : Bool) (message : String)
  | cancelled
  deriving DecidableEq

/-- `str(e) or "timeout exceeded"` -/
def timeoutText (message : String) : String := if message = "" then "timeout exceeded" else message

namespace HandlerOutcome

variable {Result : Type}

/-- The health of the job after a run. A cancelled run leaves no trace. -/
def recorded (health : JobHealthMetrics) (duration : ℚ) (now : DateTime) : HandlerOutcome Result → JobHealthMetrics
  | .returned _ =>
    { health with
      lastRunAt := some now
      lastRunDurationSeconds := duration
      successCount := health.successCount + 1
      lastError := none }
  | .timedOut => failed "timeout exceeded"
  | .raised true message => failed (timeoutText message)
  | .raised false message => failed message
  | .cancelled => health
where
  failed (message : String) : JobHealthMetrics :=
    { health with
      lastRunAt := some now
      failureCount := health.failureCount + 1
      lastError := some message }

/-- The label under which `job_executions_total` counts the run. -/
def executionStatus : HandlerOutcome Result → Option String
  | .returned _ => some "success"
  | .timedOut | .raised true _ => some "timeout"
  | .raised false _ => some "failed"
  | .cancelled => none

end HandlerOutcome

inductive Run (Result : Type) where
  | idle
  | handling (session : Nat) (startTime : ℚ)
  | ended (session : Option Nat) (outcome : HandlerOutcome Result)
  deriving DecidableEq

/-- What `session_factory()` returned to this run. -/
def Run.session {Result : Type} : Run Result → Option Nat
  | .idle => none
  | .handling session _ => some session
  | .ended session _ => session

structure World (Result : Type) where
  heap : Heap
  health : JobHealthMetrics
  jobExecutionsTotal : String → Nat
  jobDurationSeconds : List ℚ
  runs : Nat → Run Result

/-- Calls of the wrapped function are numbered. Between two steps of a run the
rest of the application creates objects and operates on any of them. -/
inductive Label (Result : Type) where
  | call (run : Nat) (startTime : ℚ)
  | settle (run : Nat) (outcome : HandlerOutcome Result) (endTime : ℚ) (now : DateTime)
  | create (object : Object)
  | operate (object : Nat) (operation : Operation)

variable {Trigger Handler Result : Type}

/-- `wait_for` is used unless the timeout is None or 0. -/
def Allowed (job : Platform.Job Trigger Handler) (outcome : HandlerOutcome Result) : Prop :=
  outcome = .timedOut → ∃ seconds ∈ job.timeoutSeconds, seconds ≠ 0

instance [DecidableEq Result] (job : Platform.Job Trigger Handler) (outcome : HandlerOutcome Result) :
    Decidable (Allowed job outcome) := by
  unfold Allowed
  cases job.timeoutSeconds with
  | none => exact decidable_of_iff (outcome ≠ .timedOut) (by simp)
  | some seconds => exact decidable_of_iff (outcome = .timedOut → seconds ≠ 0) (by simp)

def World.called (world : World Result) (run : Nat) (startTime : ℚ) (given : Heap × Nat) : World Result :=
  { world with
    heap := given.1
    runs := Function.update world.runs run (.handling given.2 startTime) }

def World.settled (world : World Result) (run session : Nat) (duration : ℚ) (now : DateTime)
    (outcome : HandlerOutcome Result) : World Result where
  heap := world.heap
  health := outcome.recorded world.health duration now
  jobExecutionsTotal :=
    match outcome.executionStatus with
    | some status => Function.update world.jobExecutionsTotal status (world.jobExecutionsTotal status + 1)
    | none => world.jobExecutionsTotal
  jobDurationSeconds :=
    match outcome with
    | .returned _ => duration :: world.jobDurationSeconds
    | .timedOut | .raised _ _ | .cancelled => world.jobDurationSeconds
  runs := Function.update world.runs run (.ended (some session) outcome)

/-- `wrap_job_handler` and the handler it wraps. -/
def step [DecidableEq Result] (job : Platform.Job Trigger Handler) (sessionFactory : Option (Heap → Heap × Nat))
    (world : World Result) : Label Result → Option (World Result)
  | .call run startTime =>
    if world.runs run = .idle then
      match sessionFactory with
      | none =>
        let outcome := .raised false "Handler wrapper called without session_factory"
        some { world with runs := Function.update world.runs run (.ended none outcome) }
      | some sessionFactory =>
        -- What the factory returned goes to the handler as it is.
        some (world.called run startTime (sessionFactory world.heap))
    else none
  | .settle run outcome endTime now =>
    match world.runs run with
    | .handling session startTime =>
      -- No branch closes what the factory returned.
      if Allowed job outcome then some (world.settled run session (endTime - startTime) now outcome) else none
    | .idle | .ended _ _ => none
  | .create object => some { world with heap := (world.heap.allocate object).1 }
  | .operate object operation => some { world with heap := world.heap.operate object operation }

def machine [DecidableEq Result] (job : Platform.Job Trigger Handler) (sessionFactory : Option (Heap → Heap × Nat)) :
    Machine (World Result) (Label Result) := ⟨step job sessionFactory⟩

def World.initial (heap : Heap) (health : JobHealthMetrics) : World Result :=
  ⟨heap, health, fun _ => 0, [], fun _ => .idle⟩

section

variable {world : World Result} {run other session : Nat} {startTime duration : ℚ} {given : Heap × Nat} {now : DateTime}
  {outcome : HandlerOutcome Result}

@[simp] theorem called_self : (world.called run startTime given).runs run = .handling given.2 startTime :=
  Function.update_self ..

theorem called_other (different : other ≠ run) : (world.called run startTime given).runs other = world.runs other :=
  Function.update_of_ne different ..

@[simp] theorem settled_self :
    (world.settled run session duration now outcome).runs run = .ended (some session) outcome :=
  Function.update_self ..

theorem settled_other (different : other ≠ run) :
    (world.settled run session duration now outcome).runs other = world.runs other :=
  Function.update_of_ne different ..

end

/-! ## What is promised of sessions -/

def World.Opened (world : World Result) (run : Nat) : Prop :=
  ∃ session, (world.runs run).session = some session ∧ world.heap[session]? = some (.session true) ∧
    ∀ other, other ≠ run → (world.runs other).session ≠ some session

def World.Closed (world : World Result) (run : Nat) : Prop :=
  ∃ session, (world.runs run).session = some session ∧ world.heap[session]? = some (.session false)

/-- The handler of the run is called with a session of its own, and when the
run ends that session has been closed. -/
def SessionScoped [DecidableEq Result] (job : Platform.Job Trigger Handler)
    (sessionFactory : Option (Heap → Heap × Nat)) (start : World Result) (labels : List (Label Result)) (run : Nat) :
    Prop :=
  (machine job sessionFactory).Every start labels fun _ _ label after =>
    (∀ startTime, label = .call run startTime → after.Opened run) ∧
      ∀ outcome endTime now, label = .settle run outcome endTime now → after.Closed run

/-! ## A generator stays a generator -/

def IsGenerator (heap : Heap) (object : Nat) : Prop := ∃ state, heap[object]? = some (.generator state)

section

variable {heap : Heap} {object : Nat}

theorem isGenerator_allocate (old : IsGenerator heap object) (new : Object) :
    IsGenerator (heap.allocate new).1 object := by
  obtain ⟨state, found⟩ := old
  refine ⟨state, ?_⟩
  rw [Heap.allocate, List.getElem?_append_left (List.getElem?_eq_some_iff.mp found).1]
  exact found

theorem isGenerator_close (old : IsGenerator heap object) (session : Nat) :
    IsGenerator (heap.close session) object := by
  unfold Heap.close
  split
  next isOpen opened =>
    obtain ⟨state, found⟩ := old
    have different : session ≠ object := by
      rintro rfl
      cases opened.symm.trans found
    refine ⟨state, ?_⟩
    rw [List.getElem?_set_ne different]
    exact found
  next => exact old
  next => exact old

theorem isGenerator_set (old : IsGenerator heap object) (place : Nat) (new : Generator) :
    IsGenerator (heap.set place (.generator new)) object := by
  obtain ⟨state, found⟩ := old
  by_cases same : place = object
  · subst same
    exact ⟨new, List.getElem?_set_self (List.getElem?_eq_some_iff.mp found).1⟩
  · refine ⟨state, ?_⟩
    rw [List.getElem?_set_ne same]
    exact found

theorem isGenerator_operate (old : IsGenerator heap object) (place : Nat) (operation : Operation) :
    IsGenerator (heap.operate place operation) object := by
  unfold Heap.operate
  split
  next => exact isGenerator_close old place
  next => exact isGenerator_set (isGenerator_allocate old _) place _
  next session _ => exact isGenerator_set (isGenerator_close old session) place _
  next session _ => exact isGenerator_set (isGenerator_close old session) place _
  next => exact isGenerator_set old place _
  next => exact old

theorem isGenerator_getDb (heap : Heap) : IsGenerator (getDb heap).1 (getDb heap).2 :=
  ⟨.created, List.getElem?_concat_length ..⟩

end

/-! ## What runs are given -/

def Handed (world : World Result) : Prop :=
  ∀ run session, (world.runs run).session = some session → IsGenerator world.heap session

theorem handed_initial (heap : Heap) (health : JobHealthMetrics) : Handed (World.initial heap health : World Result) :=
  fun _ _ has => absurd has (Option.some_ne_none _).symm

theorem Handed.not_opened {world : World Result} {run : Nat} (handed : Handed world) : ¬ world.Opened run := by
  rintro ⟨session, has, found, _⟩
  obtain ⟨state, generator⟩ := handed run session has
  cases found.symm.trans generator

section

variable [DecidableEq Result] {job : Platform.Job Trigger Handler} {before after : World Result}
  {label : Label Result} {run : Nat}

inductive Transition (before : World Result) : Label Result → World Result → Prop where
  | called (run : Nat) (startTime : ℚ) (idle : before.runs run = .idle) :
      Transition before (.call run startTime) (before.called run startTime (getDb before.heap))
  | settled (run session : Nat) (startTime endTime : ℚ) (now : DateTime) (outcome : HandlerOutcome Result)
      (handling : before.runs run = .handling session startTime) :
      Transition before (.settle run outcome endTime now)
        (before.settled run session (endTime - startTime) now outcome)
  | created (object : Object) :
      Transition before (.create object) { before with heap := (before.heap.allocate object).1 }
  | operated (object : Nat) (operation : Operation) :
      Transition before (.operate object operation) { before with heap := before.heap.operate object operation }

theorem transition_of_step (stepped : (machine job (some getDb)).step before label = some after) :
    Transition before label after := by
  cases label with
  | call run startTime =>
    obtain ⟨idle, same⟩ := Option.ite_none_right_eq_some.mp stepped
    cases same
    exact .called run startTime idle
  | settle run outcome endTime now =>
    simp only [machine, step] at stepped
    split at stepped
    next session startTime handling =>
      obtain ⟨_, same⟩ := Option.ite_none_right_eq_some.mp stepped
      cases same
      exact .settled run session startTime endTime now outcome handling
    next => cases stepped
    next => cases stepped
  | create object => cases stepped; exact .created object
  | operate object operation => cases stepped; exact .operated object operation

theorem handed_of_step (handed : Handed before)
    (stepped : (machine job (some getDb)).step before label = some after) : Handed after := by
  intro run session has
  cases transition_of_step stepped with
  | called other startTime idle =>
    by_cases same : run = other
    · subst same
      rw [called_self] at has
      cases has
      exact isGenerator_getDb before.heap
    · rw [called_other same] at has
      exact isGenerator_allocate (handed run session has) _
  | settled other given startTime endTime now outcome handling =>
    by_cases same : run = other
    · subst same
      rw [settled_self] at has
      cases has
      exact handed run session (by rw [handling]; rfl)
    · rw [settled_other same] at has
      exact handed run session has
  | created object => exact isGenerator_allocate (handed run session has) object
  | operated object operation => exact isGenerator_operate (handed run session has) object operation

/-! ## Which runs have begun -/

theorem not_idle_of_step (begun : before.runs run ≠ .idle)
    (stepped : (machine job (some getDb)).step before label = some after) : after.runs run ≠ .idle := by
  cases transition_of_step stepped with
  | called other startTime idle =>
    have different : run ≠ other := by
      rintro rfl
      exact begun idle
    rw [called_other different]
    exact begun
  | settled other given startTime endTime now outcome handling =>
    by_cases same : run = other
    · subst same
      rw [settled_self]
      simp only [ne_eq, reduceCtorEq, not_false_eq_true]
    · rw [settled_other same]
      exact begun
  | created object => exact begun
  | operated object operation => exact begun

theorem begins (idle : before.runs run = .idle)
    (stepped : (machine job (some getDb)).step before label = some after) :
    after.runs run = .idle ∨ ∃ startTime, label = .call run startTime := by
  cases transition_of_step stepped with
  | called other startTime =>
    by_cases same : run = other
    · subst same
      exact .inr ⟨startTime, rfl⟩
    · exact .inl ((called_other same).trans idle)
  | settled other given startTime endTime now outcome handling =>
    have different : run ≠ other := by
      rintro rfl
      cases idle.symm.trans handling
    exact .inl ((settled_other different).trans idle)
  | created object => exact .inl idle
  | operated object operation => exact .inl idle

theorem not_idle_of_label (stepped : (machine job (some getDb)).step before label = some after)
    (about : (∃ startTime, label = .call run startTime) ∨
      ∃ outcome endTime now, label = .settle run outcome endTime now) : after.runs run ≠ .idle := by
  rcases about with ⟨startTime, rfl⟩ | ⟨outcome, endTime, now, rfl⟩
  · cases transition_of_step stepped with
    | called =>
      rw [called_self]
      simp only [ne_eq, reduceCtorEq, not_false_eq_true]
  · cases transition_of_step stepped with
    | settled =>
      rw [settled_self]
      simp only [ne_eq, reduceCtorEq, not_false_eq_true]

/-- However the handlers end and the runs overlap, no run has a session of its
own that is closed in the end, except one that has not begun. -/
theorem session_scoped_iff (job : Platform.Job Trigger Handler) (heap : Heap) (health : JobHealthMetrics)
    (labels : List (Label Result)) (final : World Result)
    (ran : (machine job (some getDb)).run (World.initial heap health) labels = some final) (run : Nat) :
    SessionScoped job (some getDb) (World.initial heap health) labels run ↔ final.runs run = .idle := by
  constructor
  · intro promise
    have both : final.runs run = .idle ∧ Handed final := by
      refine Machine.invariant (fun world => world.runs run = .idle ∧ Handed world)
        ⟨rfl, handed_initial heap health⟩ promise ?_ ran
      rintro _ before label after ⟨idle, handed⟩ promised stepped
      have handed := handed_of_step handed stepped
      refine ⟨?_, handed⟩
      rcases begins idle stepped with still | ⟨startTime, called⟩
      · exact still
      · exact absurd (promised.1 startTime called) handed.not_opened
    exact both.1
  · intro idle earlier label later before after split started stepped
    have tail : (machine job (some getDb)).run after later = some final := by
      rw [split, Machine.run_append] at ran
      obtain ⟨middle, first, rest⟩ := ran
      cases started.symm.trans first
      obtain ⟨next, same, rest⟩ := Machine.run_cons.mp rest
      cases stepped.symm.trans same
      exact rest
    -- A run that has begun would have begun in the end as well.
    have untouched : after.runs run = .idle := by
      by_contra begun
      exact Machine.invariant_of_step (fun world => world.runs run ≠ .idle) begun
        (fun _ _ _ begun => not_idle_of_step begun) tail idle
    refine ⟨fun startTime called => ?_, fun outcome endTime now settled => ?_⟩
    · exact absurd untouched (not_idle_of_label stepped (.inl ⟨startTime, called⟩))
    · exact absurd untouched (not_idle_of_label stepped (.inr ⟨outcome, endTime, now, settled⟩))

/-- A factory of sessions would not be enough: the end of a run leaves open what is open. -/
theorem left_open {sessionFactory : Option (Heap → Heap × Nat)} {outcome : HandlerOutcome Result} {endTime : ℚ}
    {now : DateTime} (opened : before.Opened run)
    (stepped : (machine job sessionFactory).step before (.settle run outcome endTime now) = some after) :
    ¬ after.Closed run := by
  obtain ⟨session, has, isOpen, _⟩ := opened
  simp only [machine, step] at stepped
  split at stepped
  next given startTime handling =>
    obtain ⟨_, same⟩ := Option.ite_none_right_eq_some.mp stepped
    cases same
    rw [handling] at has
    cases has
    rintro ⟨other, has, closed⟩
    rw [settled_self] at has
    cases has
    cases isOpen.symm.trans closed
  next => cases stepped
  next => cases stepped

def oneJob : Platform.Job Unit Unit where
  name := "archive_old_records"
  handler := ()
  trigger := none
  timeoutSeconds := some 600

def oneRun : List (Label Unit) := [.call 0 0, .settle 0 (.returned ()) 1 (january 9)]

theorem session_scoped_oneRun : ∃ final, (machine oneJob (some getDb)).run (World.initial [] {}) oneRun = some final ∧
    (SessionScoped oneJob (some getDb) (World.initial [] {}) oneRun 0 ↔ final.runs 0 = .idle) :=
  ⟨_, rfl, session_scoped_iff oneJob [] {} oneRun _ rfl 0⟩

/-- The handler is called with a generator, and nobody opens a session for it. -/
theorem session_not_scoped : ¬ SessionScoped oneJob (some getDb) (World.initial [] {}) oneRun 0 := by
  intro promise
  have stepped : (machine oneJob (some getDb)).step (World.initial [] {}) (.call 0 0) =
      some ((World.initial [] {} : World Unit).called 0 0 (getDb [])) := rfl
  have called := promise [] (.call 0 0) _ _ _ rfl rfl stepped
  exact (handed_of_step (handed_initial [] {}) stepped).not_opened (called.1 0 rfl)

end

end DataPipeline.Ingestor.JobSessions
