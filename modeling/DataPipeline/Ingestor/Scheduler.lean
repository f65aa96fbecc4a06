import DataPipeline.Library.Scheduling
import DataPipeline.Platform.JobTypes

/-! `JobScheduler` of `ingestor/core/scheduler.py` and the jobs of `ingestor/jobs_registry.py`. -/

set_option autoImplicit false

namespace DataPipeline.Ingestor.JobScheduler

open Execution Scheduling Platform

variable {Trigger Handler : Type}

/-- The arguments of `JobScheduler.job` and the handler that it decorates. -/
structure Registration (Trigger Handler : Type) where
  name : String
  trigger : Option Trigger
  maxRetries : Int := 3
  timeoutSeconds : Option Int := none
  tags : Option (List String) := none
  handler : Handler

/-- The dict `_jobs` after the decorator has been applied: a name that is taken
gets the new job. -/
def job (jobs : List (Platform.Job Trigger Handler)) (registration : Registration Trigger Handler) :
    List (Platform.Job Trigger Handler) :=
  put Platform.Job.name jobs
    { name := registration.name
      handler := registration.handler
      trigger := registration.trigger
      maxRetries := registration.maxRetries
      timeoutSeconds := registration.timeoutSeconds
      tags := registration.tags.getD [] }

def registered (registrations : List (Registration Trigger Handler)) : List (Platform.Job Trigger Handler) :=
  registrations.foldl job []

/-- `JobScheduler.start` at the time `now`, where `added` says when each job was
handed over to APScheduler. What runs is the wrapped handler of the job. -/
def start (nextFire : NextFire Trigger) (jobs : List (Platform.Job Trigger Handler)) (added : String → ℚ) (now : ℚ) :
    State Trigger (Platform.Job Trigger Handler) :=
  Scheduling.start nextFire (jobs.map fun job => (job.name, job, Plan.create job.trigger (added job.name))) now

/-- In no run is a job without a trigger executed, and every job with a trigger
is in the store once under its name when the scheduler has started, and never twice. -/
def DisabledJobsRest (nextFire : NextFire Trigger) (jobs : List (Platform.Job Trigger Handler)) : Prop :=
  ∀ added now, (∀ job ∈ jobs, added job.name ≤ now) →
    ∀ labels final, (machine nextFire).run (start nextFire jobs added now) labels = some final →
      (∀ job ∈ jobs, job.trigger = none → ∀ submission ∈ final.executed, submission.id ≠ job.name) ∧
        ∀ job ∈ jobs, ∀ trigger, job.trigger = some trigger →
          (start nextFire jobs added now).jobs.filter (·.id = job.name) =
            [⟨job.name, job, .recurring trigger, nextFire trigger none now⟩] ∧
          (final.jobs.filter (·.id = job.name)).length ≤ 1

/-! ## What is scheduled -/

variable {nextFire : NextFire Trigger} {jobs : List (Platform.Job Trigger Handler)} {added : String → ℚ} {now : ℚ}
  {job : Platform.Job Trigger Handler}

theorem nodup_registered (registrations : List (Registration Trigger Handler)) :
    ((registered registrations).map Platform.Job.name).Nodup := by
  unfold registered
  have empty : (([] : List (Platform.Job Trigger Handler)).map Platform.Job.name).Nodup := List.nodup_nil
  generalize ([] : List (Platform.Job Trigger Handler)) = jobs at empty ⊢
  induction registrations generalizing jobs with
  | nil => exact empty
  | cons registration registrations ih => exact ih _ (nodup_put empty _)

theorem exists_registration {registrations : List (Registration Trigger Handler)}
    (member : job ∈ registered registrations) :
    ∃ registration ∈ registrations, job.name = registration.name ∧ job.handler = registration.handler ∧
      job.maxRetries = registration.maxRetries := by
  unfold registered at member
  induction registrations using List.reverseRecOn with
  | nil => cases member
  | append_singleton registrations last ih =>
    rw [List.foldl_append, List.foldl_cons, List.foldl_nil] at member
    rcases mem_put member with rfl | earlier
    · exact ⟨last, List.mem_append_right _ List.mem_cons_self, rfl, rfl, rfl⟩
    · obtain ⟨registration, listed, same⟩ := ih earlier
      exact ⟨registration, List.mem_append_left _ listed, same⟩

def entry (nextFire : NextFire Trigger) (added : String → ℚ) (now : ℚ) (job : Platform.Job Trigger Handler) :
    Entry Trigger (Platform.Job Trigger Handler) :=
  let plan := Plan.create job.trigger (added job.name)
  ⟨job.name, job, plan, plan.nextFire nextFire none now⟩

theorem jobs_start_eq (distinct : (jobs.map Platform.Job.name).Nodup) :
    (start nextFire jobs added now).jobs = jobs.map (entry nextFire added now) := by
  rw [start, jobs_start, List.map_map]
  · rfl
  · rw [List.map_map]
    exact distinct

theorem filter_start (nextFire : NextFire Trigger) (added : String → ℚ) (now : ℚ)
    (distinct : (jobs.map Platform.Job.name).Nodup) (member : job ∈ jobs) :
    (start nextFire jobs added now).jobs.filter (·.id = job.name) = [entry nextFire added now job] := by
  have ids : ((jobs.map (entry nextFire added now)).map Entry.id).Nodup := by
    rw [List.map_map]
    exact distinct
  rw [jobs_start_eq distinct]
  exact Table.filter_field ids (List.mem_map_of_mem member)

/-- A job without a trigger is executed at once in some run. -/
theorem executed_at_once (nextFire : NextFire Trigger) (now : ℚ) (distinct : (jobs.map Platform.Job.name).Nodup)
    (member : job ∈ jobs) (disabled : job.trigger = none) :
    ∃ labels final, (machine nextFire).run (start nextFire jobs (fun _ => now) now) labels = some final ∧
      ∃ submission ∈ final.executed, submission.id = job.name := by
  have only := filter_start nextFire (fun _ => now) now distinct member
  have found : (start nextFire jobs (fun _ => now) now).jobs.find? (·.id = job.name) =
      some (entry nextFire (fun _ => now) now job) := by
    rw [← List.head?_filter, only, List.head?_cons]
  have trigger : (entry nextFire (fun _ => now) now job).trigger = .date now := by rw [entry, disabled]; rfl
  have due : (entry nextFire (fun _ => now) now job).nextRunTime = some now := by rw [entry, disabled]; rfl
  have early : now - now ≤ misfireGraceTime := by rw [sub_self]; decide
  obtain ⟨final, ran, submission, executed, same⟩ :=
    date_executed rfl ⟨rfl, rfl⟩ found trigger due le_rfl early
  exact ⟨_, final, ran, submission, executed, same⟩

/-- Disabled jobs rest if and only if there are none. -/
theorem disabled_jobs_rest_iff (nextFire : NextFire Trigger) (registrations : List (Registration Trigger Handler)) :
    DisabledJobsRest nextFire (registered registrations) ↔
      ∀ job ∈ registered registrations, job.trigger ≠ none := by
  have distinct := nodup_registered registrations
  constructor
  · intro rest job member disabled
    obtain ⟨labels, final, ran, submission, executed, same⟩ :=
      executed_at_once nextFire 0 distinct member disabled
    exact (rest _ 0 (fun _ _ => le_rfl) labels final ran).1 job member disabled submission executed same
  · intro enabled added now _ labels final ran
    refine ⟨fun job member disabled => absurd disabled (enabled job member), ?_⟩
    intro job member trigger has
    refine ⟨?_, filter_id_le_one ran job.name⟩
    rw [filter_start nextFire added now distinct member, entry, has]
    rfl

/-! ## The jobs of the application -/

inductive JobHandler where
  | ingestScheduledBatchExample
  | archiveOldRecords
  deriving DecidableEq

def registerJobs : List (Registration Trigger JobHandler) :=
  [{ name := "ingest_scheduled_batch_example"
     trigger := none
     maxRetries := 3
     timeoutSeconds := some 300
     tags := some ["batch", "example"]
     handler := .ingestScheduledBatchExample },
   { name := "archive_old_records"
     trigger := none
     maxRetries := 2
     timeoutSeconds := some 600
     tags := some ["archive", "maintenance"]
     handler := .archiveOldRecords }]

theorem registered_registerJobs :
    ((registered registerJobs : List (Platform.Job Trigger JobHandler)).map fun job => (job.name, job.trigger)) =
      [("ingest_scheduled_batch_example", none), ("archive_old_records", none)] := by
  simp [registered, registerJobs, JobScheduler.job, put]

/-- `IntervalTrigger`, which needs the seconds of its interval. -/
def intervalNextFire : NextFire ℚ := fun interval previous now => some (previous.getD now + interval)

/-- The application archives old records as soon as it starts. -/
theorem archive_job_runs : ¬ DisabledJobsRest intervalNextFire (registered registerJobs) := by
  intro rest
  have archiving : ("archive_old_records", none) ∈
      (registered registerJobs : List (Platform.Job ℚ JobHandler)).map fun job => (job.name, job.trigger) := by
    rw [registered_registerJobs]
    exact List.mem_cons_of_mem _ List.mem_cons_self
  obtain ⟨job, member, same⟩ := List.mem_map.mp archiving
  have disabled : job.trigger = none := congrArg Prod.snd same
  have distinct := nodup_registered (registerJobs : List (Registration ℚ JobHandler))
  obtain ⟨labels, final, ran, submission, executed, same⟩ :=
    executed_at_once intervalNextFire 0 distinct member disabled
  exact (rest _ 0 (fun _ _ => le_rfl) labels final ran).1 job member disabled submission executed same

end DataPipeline.Ingestor.JobScheduler
