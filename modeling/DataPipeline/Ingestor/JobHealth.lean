import DataPipeline.Ingestor.JobSessions
import DataPipeline.Ingestor.Scheduler

/-! What the health record of a job says after any runs of its wrapped handler,
overlapping in any way, and how often a run invokes the handler.
-/

set_option autoImplicit false

namespace DataPipeline.Ingestor.JobSessions

open Calendar Execution Platform

variable {Trigger Handler Result : Type}

namespace HandlerOutcome

def Succeeded : HandlerOutcome Result → Bool
  | .returned _ => true
  | .timedOut | .raised _ _ | .cancelled => false

def Failed : HandlerOutcome Result → Bool
  | .timedOut | .raised _ _ => true
  | .returned _ | .cancelled => false

end HandlerOutcome

/-- The invocations of the handler that have ended, in that order, with the runs they belong to. -/
def ended (labels : List (Label Result)) : List (Nat × HandlerOutcome Result) :=
  labels.filterMap fun
    | .settle run outcome _ _ => some (run, outcome)
    | .call _ _ | .create _ | .operate _ _ => none

def counted (invocation : Nat × HandlerOutcome Result) : Bool := invocation.2.Succeeded || invocation.2.Failed

/-- How the counted run that finished last has ended. -/
def lastCounted (labels : List (Label Result)) : Option (HandlerOutcome Result) :=
  (((ended labels).filter counted).getLast?).map Prod.snd

structure Ledger (labels : List (Label Result)) (world : World Result) : Prop where
  once : ((ended labels).map Prod.fst).Nodup
  runs : ∀ run outcome, (∃ session, world.runs run = .ended session outcome) ↔ (run, outcome) ∈ ended labels
  successes : world.health.successCount = (ended labels).countP fun invocation => invocation.2.Succeeded
  failures : world.health.failureCount = (ended labels).countP fun invocation => invocation.2.Failed
  lastError : world.health.lastError = none ↔ ∀ outcome, lastCounted labels = some outcome → outcome.Succeeded = true

/-! ## One more label -/

variable {labels : List (Label Result)} {label : Label Result} {run : Nat} {outcome : HandlerOutcome Result}
  {endTime duration : ℚ} {now : DateTime} {health : JobHealthMetrics} {before after : World Result}

theorem ended_concat_settle :
    ended (labels ++ [.settle run outcome endTime now]) = ended labels ++ [(run, outcome)] := by
  simp [ended]

theorem ended_concat_other (other : ∀ run outcome endTime now, label ≠ .settle run outcome endTime now) :
    ended (labels ++ [label]) = ended labels := by
  cases label with
  | settle run outcome endTime now => exact absurd rfl (other run outcome endTime now)
  | call | create | operate => simp [ended]

theorem successCount_recorded : (outcome.recorded health duration now).successCount =
    health.successCount + if outcome.Succeeded then 1 else 0 := by
  cases outcome with
  | raised isTimeoutError message => cases isTimeoutError <;> rfl
  | returned | timedOut | cancelled => rfl

theorem failureCount_recorded : (outcome.recorded health duration now).failureCount =
    health.failureCount + if outcome.Failed then 1 else 0 := by
  cases outcome with
  | raised isTimeoutError message => cases isTimeoutError <;> rfl
  | returned | timedOut | cancelled => rfl

theorem lastError_recorded : (outcome.recorded health duration now).lastError = none ↔
    outcome.Succeeded = true ∨ (outcome.Failed = false ∧ health.lastError = none) := by
  cases outcome with
  | raised isTimeoutError message =>
    cases isTimeoutError <;> simp [HandlerOutcome.recorded, HandlerOutcome.recorded.failed, HandlerOutcome.Succeeded,
      HandlerOutcome.Failed]
  | returned | timedOut | cancelled =>
    simp [HandlerOutcome.recorded, HandlerOutcome.recorded.failed, HandlerOutcome.Succeeded, HandlerOutcome.Failed]

theorem lastCounted_concat : lastCounted (labels ++ [.settle run outcome endTime now]) =
    if outcome.Succeeded || outcome.Failed then some outcome else lastCounted labels := by
  rw [lastCounted, ended_concat_settle, List.filter_append]
  by_cases counts : (outcome.Succeeded || outcome.Failed) = true
  · simp [counted, counts]
  · simp [counted, counts, lastCounted]

theorem ledger_initial (heap : Heap) : Ledger [] (World.initial heap {} : World Result) where
  once := List.nodup_nil
  runs run outcome := by simp [World.initial, ended]
  successes := rfl
  failures := rfl
  lastError := by simp [World.initial, lastCounted, ended]

theorem Ledger.keep (ledger : Ledger labels before)
    (other : ∀ run outcome endTime now, label ≠ .settle run outcome endTime now)
    (runs : ∀ run outcome, (∃ session, after.runs run = .ended session outcome) ↔
      ∃ session, before.runs run = .ended session outcome)
    (health : after.health = before.health) : Ledger (labels ++ [label]) after := by
  have same : ended (labels ++ [label]) = ended labels := ended_concat_other other
  refine ⟨?_, ?_, ?_, ?_, ?_⟩
  · rw [same]
    exact ledger.once
  · intro run outcome
    rw [runs, same]
    exact ledger.runs run outcome
  · rw [health, same]
    exact ledger.successes
  · rw [health, same]
    exact ledger.failures
  · rw [health, lastCounted, same]
    exact ledger.lastError

section

variable [DecidableEq Result] {job : Platform.Job Trigger Handler} {sessionFactory : Heap → Heap × Nat}

/-- A step calls the handler of a run that is idle, ends a run whose handler has been
called, or has nothing to do with runs. -/
theorem step_cases (stepped : (machine job (some sessionFactory)).step before label = some after) :
    (∃ run startTime, label = .call run startTime ∧ before.runs run = .idle ∧
      after = before.called run startTime (sessionFactory before.heap)) ∨
    (∃ run session startTime outcome endTime now, label = .settle run outcome endTime now ∧
      before.runs run = .handling session startTime ∧
      after = before.settled run session (endTime - startTime) now outcome) ∨
    ((∀ run outcome endTime now, label ≠ .settle run outcome endTime now) ∧ after.runs = before.runs ∧
      after.health = before.health) := by
  cases label with
  | call run startTime =>
    obtain ⟨idle, same⟩ := Option.ite_none_right_eq_some.mp stepped
    exact .inl ⟨run, startTime, rfl, idle, (Option.some.inj same).symm⟩
  | settle run outcome endTime now =>
    simp only [machine, JobSessions.step] at stepped
    split at stepped
    next session startTime handling =>
      obtain ⟨-, same⟩ := Option.ite_none_right_eq_some.mp stepped
      exact .inr (.inl ⟨run, session, startTime, outcome, endTime, now, rfl, handling, (Option.some.inj same).symm⟩)
    next => cases stepped
    next => cases stepped
  | create object => cases stepped; exact .inr (.inr ⟨by simp, rfl, rfl⟩)
  | operate object operation => cases stepped; exact .inr (.inr ⟨by simp, rfl, rfl⟩)

theorem Ledger.step (ledger : Ledger labels before)
    (stepped : (machine job (some sessionFactory)).step before label = some after) :
    Ledger (labels ++ [label]) after := by
  rcases step_cases stepped with ⟨run, startTime, rfl, idle, rfl⟩ |
    ⟨run, session, startTime, outcome, endTime, now, rfl, handling, rfl⟩ | ⟨other, runs, health⟩
  · refine ledger.keep (fun _ _ _ _ => nofun) (fun other outcome => ?_) rfl
    by_cases same : other = run
    · rw [same, called_self, idle]
      simp
    · rw [called_other same]
  -- The handler of this run had not ended before.
  · have new : ∀ outcome, (run, outcome) ∉ ended labels := by
      intro outcome listed
      obtain ⟨session, finished⟩ := (ledger.runs run outcome).mpr listed
      cases handling.symm.trans finished
    refine ⟨?_, fun other result => ?_, ?_, ?_, ?_⟩
    · rw [ended_concat_settle, List.map_append, List.map_singleton]
      refine List.nodup_append.mpr ⟨ledger.once, List.nodup_singleton _, ?_⟩
      rintro earlier listed _ single rfl
      obtain ⟨⟨_, result⟩, member, rfl⟩ := List.mem_map.mp listed
      cases List.mem_singleton.mp single
      exact new result member
    · rw [ended_concat_settle, List.mem_append, List.mem_singleton, ← ledger.runs]
      by_cases same : other = run
      · subst same
        rw [settled_self, handling]
        simp [eq_comm]
      · rw [settled_other same]
        simp [same]
    · rw [ended_concat_settle, List.countP_append, ← ledger.successes, List.countP_singleton]
      exact successCount_recorded
    · rw [ended_concat_settle, List.countP_append, ← ledger.failures, List.countP_singleton]
      exact failureCount_recorded
    · have recorded : (before.settled run session (endTime - startTime) now outcome).health.lastError = none ↔
          outcome.Succeeded = true ∨ (outcome.Failed = false ∧ before.health.lastError = none) := lastError_recorded
      rw [recorded, lastCounted_concat, ledger.lastError]
      cases outcome with
      | raised | returned | timedOut | cancelled => simp [HandlerOutcome.Succeeded, HandlerOutcome.Failed]
  · refine ledger.keep other (fun run outcome => ?_) health
    rw [runs]

theorem ledger_run {heap : Heap} {world : World Result}
    (ran : (machine job (some sessionFactory)).run (World.initial heap {}) labels = some world) :
    Ledger labels world := by
  induction labels using List.reverseRecOn generalizing world with
  | nil =>
    cases ran
    exact ledger_initial heap
  | append_singleton labels last ih =>
    obtain ⟨middle, head, stepped⟩ := Machine.run_concat.mp ran
    exact (ih head).step stepped

end

theorem successRate_bounds (health : JobHealthMetrics) : 0 ≤ health.successRate ∧ health.successRate ≤ 1 := by
  simp only [JobHealthMetrics.successRate]
  split
  next => exact ⟨zero_le_one, le_rfl⟩
  next some =>
    refine ⟨div_nonneg (Nat.cast_nonneg _) (Nat.cast_nonneg _), div_le_one_of_le₀ ?_ (Nat.cast_nonneg _)⟩
    exact_mod_cast Nat.le_add_right health.successCount health.failureCount

/-- Successes and failures are counted once for each run that ended so, a cancelled
run is not counted, and the error is that of the last counted run. -/
theorem job_health [DecidableEq Result] (job : Platform.Job Trigger Handler) (sessionFactory : Heap → Heap × Nat)
    (heap : Heap) (labels : List (Label Result)) (world : World Result)
    (ran : (machine job (some sessionFactory)).run (World.initial heap {}) labels = some world) :
    Ledger labels world ∧ 0 ≤ world.health.successRate ∧ world.health.successRate ≤ 1 :=
  ⟨ledger_run ran, successRate_bounds world.health⟩

/-- Two runs overlap, and the one that ends first fails. -/
def twoRuns : List (Label Unit) :=
  [.call 0 0, .call 1 0, .settle 1 (.raised false "refused") 1 (january 9), .settle 0 (.returned ()) 2 (january 9)]

theorem half_successful : ∃ world, (machine oneJob (some getDb)).run (World.initial [] {}) twoRuns = some world ∧
    world.health.successCount = 1 ∧ world.health.failureCount = 1 ∧ world.health.lastError = none := by
  have ends : ((machine oneJob (some getDb)).run (World.initial [] {}) twoRuns).isSome = true := rfl
  obtain ⟨world, ran⟩ := Option.isSome_iff_exists.mp ends
  have ledger := (job_health oneJob getDb [] twoRuns world ran).1
  have last : lastCounted twoRuns = some (.returned ()) := rfl
  refine ⟨world, ran, ledger.successes, ledger.failures, ledger.lastError.mpr fun outcome counted => ?_⟩
  cases last.symm.trans counted
  rfl

/-! ## Retries -/

/-- A run of the wrapped handler from its call to its end, while no other run ends. The
invocations of the handler end as the sequence says. -/
def Completes [DecidableEq Result] (job : Platform.Job Trigger Handler) (outcomes : Nat → HandlerOutcome Result)
    (labels : List (Label Result)) (world : World Result) : Prop :=
  (∃ sessionFactory heap, (machine job (some sessionFactory)).run (World.initial heap {}) labels = some world) ∧
    (∃ session outcome, world.runs 0 = .ended session outcome) ∧
    ∀ index run outcome, (ended labels)[index]? = some (run, outcome) → run = 0 ∧ outcome = outcomes index

/-- As many failures as there are retries are made up for by the next invocation, and
one more makes the run a failure. -/
def RetriesHonoured (Result : Type) [DecidableEq Result] (job : Platform.Job Trigger Handler) : Prop :=
  ∀ (outcomes : Nat → HandlerOutcome Result) labels world, Completes job outcomes labels world →
    (∀ failures : Nat, (failures : Int) ≤ job.maxRetries → (∀ index < failures, (outcomes index).Failed = true) →
      (outcomes failures).Succeeded = true → (ended labels).length = failures + 1 ∧
        world.health.successCount = 1 ∧ world.health.failureCount = 0) ∧
    (0 ≤ job.maxRetries → (∀ index : Nat, (index : Int) ≤ job.maxRetries → (outcomes index).Failed = true) →
      world.health.successCount = 0 ∧ world.health.failureCount = 1)

section

variable [DecidableEq Result] {job : Platform.Job Trigger Handler} {outcomes : Nat → HandlerOutcome Result}
  {world : World Result}

theorem Completes.ended_eq (completes : Completes job outcomes labels world) : ended labels = [(0, outcomes 0)] := by
  obtain ⟨⟨sessionFactory, heap, ran⟩, ⟨session, outcome, finished⟩, follows⟩ := completes
  have ledger := ledger_run ran
  have listed : (0, outcome) ∈ ended labels := (ledger.runs 0 outcome).mp ⟨session, finished⟩
  have distinct := ledger.once
  cases entries : ended labels with
  | nil =>
    rw [entries] at listed
    cases listed
  | cons first rest =>
    rw [entries] at follows distinct
    obtain ⟨isFirst, sameFirst⟩ := follows 0 first.1 first.2 rfl
    cases rest with
    | nil => exact congrArg (fun entry => [entry]) (Prod.ext isFirst sameFirst)
    | cons second rest =>
      obtain ⟨isSecond, -⟩ := follows 1 second.1 second.2 rfl
      simp [isFirst, isSecond] at distinct

theorem Completes.counts (completes : Completes job outcomes labels world) :
    world.health.successCount = (if (outcomes 0).Succeeded then 1 else 0) ∧
      world.health.failureCount = (if (outcomes 0).Failed then 1 else 0) := by
  have only := completes.ended_eq
  obtain ⟨⟨sessionFactory, heap, ran⟩, -⟩ := completes
  have ledger := ledger_run ran
  rw [ledger.successes, ledger.failures, only, List.countP_singleton, List.countP_singleton]
  exact ⟨rfl, rfl⟩

theorem honoured_of_no_retries (none : job.maxRetries ≤ 0) : RetriesHonoured Result job := by
  intro outcomes labels world completes
  obtain ⟨successes, failures⟩ := completes.counts
  refine ⟨fun count allowed _ succeeds => ?_, fun budget fails => ?_⟩
  · have first : count = 0 := by omega
    subst first
    have notFailed : (outcomes 0).Failed = false := by
      cases ends : outcomes 0 with
      | returned result => rfl
      | timedOut | raised | cancelled => rw [ends] at succeeds; cases succeeds
    rw [completes.ended_eq, successes, failures, succeeds, notFailed]
    exact ⟨rfl, rfl, rfl⟩
  · have failed : (outcomes 0).Failed = true := fails 0 (by omega)
    have notSucceeded : (outcomes 0).Succeeded = false := by
      cases ends : outcomes 0 with
      | returned result => rw [ends] at failed; cases failed
      | timedOut | raised | cancelled => rfl
    rw [successes, failures, failed, notSucceeded]
    exact ⟨rfl, rfl⟩

def failingOnce [Inhabited Result] : Nat → HandlerOutcome Result
  | 0 => .raised false "refused"
  | _ + 1 => .returned default

theorem completes_failingOnce [Inhabited Result] (job : Platform.Job Trigger Handler) :
    ∃ labels, ∃ world : World Result, Completes job failingOnce labels world := by
  have allowed : Allowed job (.raised false "refused" : HandlerOutcome Result) := nofun
  let called : World Result := (World.initial [] {}).called 0 0 (getDb [])
  have calls : (machine job (some getDb)).step (World.initial [] {}) (.call 0 0) = some called := rfl
  have settles : (machine job (some getDb)).step called (.settle 0 (.raised false "refused") 1 (january 9)) =
      some (called.settled 0 0 1 (january 9) (.raised false "refused")) := by
    have handling : called.runs 0 = .handling 0 0 := called_self
    simp only [machine, JobSessions.step, handling, if_pos allowed, sub_zero]
  refine ⟨[.call 0 0, .settle 0 (.raised false "refused") 1 (january 9)], _,
    ⟨getDb, [], Machine.run_cons.mpr ⟨_, calls, Machine.run_cons.mpr ⟨_, settles, rfl⟩⟩⟩, ⟨_, _, settled_self⟩, ?_⟩
  intro index run outcome found
  cases index with
  | zero => cases found; exact ⟨rfl, rfl⟩
  | succ index => simp [ended] at found

/-- A budget of retries is honoured exactly if there is nothing to honour. -/
theorem honoured_iff [Inhabited Result] (job : Platform.Job Trigger Handler) :
    RetriesHonoured Result job ↔ job.maxRetries ≤ 0 := by
  refine ⟨fun honoured => ?_, honoured_of_no_retries⟩
  by_contra budget
  obtain ⟨labels, world, completes⟩ := @completes_failingOnce _ _ Result _ _ job
  have fails : ∀ index < 1, (failingOnce index : HandlerOutcome Result).Failed = true := by
    intro index first
    rw [Nat.lt_one_iff.mp first]
    rfl
  have twice := ((honoured _ labels world completes).1 1 (by omega) fails rfl).1
  rw [completes.ended_eq] at twice
  cases twice

end

/-- The jobs of a scheduler have the retries they were registered with, and these are
honoured exactly if they are none. -/
theorem retries_honoured_iff [DecidableEq Result] [Inhabited Result]
    (registrations : List (JobScheduler.Registration Trigger Handler)) :
    ∀ job ∈ JobScheduler.registered registrations,
      (∃ registration ∈ registrations, job.name = registration.name ∧ job.handler = registration.handler ∧
        job.maxRetries = registration.maxRetries) ∧
      (RetriesHonoured Result job ↔ job.maxRetries ≤ 0) :=
  fun job member => ⟨JobScheduler.exists_registration member, honoured_iff job⟩

def onlyOnce : JobScheduler.Registration Unit Unit where
  name := "archive_old_records"
  trigger := none
  maxRetries := 0
  handler := ()

theorem registered_onlyOnce (maxRetries : Int) : JobScheduler.registered [{ onlyOnce with maxRetries }] =
    [{ name := "archive_old_records", handler := (), trigger := none, maxRetries }] := rfl

theorem only_once_honoured :
    ∃ job ∈ JobScheduler.registered [onlyOnce], job.maxRetries = 0 ∧ RetriesHonoured Unit job := by
  have member := registered_onlyOnce 0 ▸ List.mem_singleton_self _
  exact ⟨_, member, rfl, (@retries_honoured_iff Unit Unit Unit _ _ [onlyOnce] _ member).2.mpr le_rfl⟩

/-- With the default of three retries one failure is the end of the run. -/
theorem default_retries_not_honoured : ∃ job ∈ JobScheduler.registered [{ onlyOnce with maxRetries := 3 }],
    job.maxRetries = 3 ∧ ¬ RetriesHonoured Unit job := by
  refine ⟨_, registered_onlyOnce 3 ▸ List.mem_singleton_self _, rfl, fun honoured => ?_⟩
  have none := (honoured_iff _).mp honoured
  cases none

end DataPipeline.Ingestor.JobSessions
