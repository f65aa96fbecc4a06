import DataPipeline.Ingestor.BackgroundWorkers
import DataPipeline.Ingestor.Jobs

/-! The worker pool with its default processor.

A task is one call of `ingest_api_batch`: the worker that takes it reads the
date, checks and marks the key and starts the insert without an await between
them. After the insert the session is closed, and only then does the processor
return. Closing a session is taken not to raise.
-/

set_option autoImplicit false

namespace DataPipeline.Ingestor.DefaultPool

open Execution Calendar Platform

/-- `idempotency_key_prefix` of `_default_processor` -/
def keyPrefix (today : Date) : String := "bg-batch-" ++ today.isoformat.toString

structure World where
  pool : Pool Answer
  jobs : Jobs.World

def World.initial (config : PoolConfig) (ttlSeconds clock : ℚ) : World :=
  ⟨Pool.empty.start config, .initial ttlSeconds clock⟩

def processorOutcome : Answer → Outcome Answer String
  | .raised error => .raised error
  | .cancelled => .cancelled
  | answer@(.record _) | answer@.skipped | answer@(.summary _ _ _) => .returned answer

inductive Label where
  | start
  | submit (task : TaskId) (records : List RecordRequest) (queuedAt : DateTime)
  | dequeue (worker : Nat) (startedAt : DateTime) (today : Date) (checked marked : ℚ)
  | write (worker : Nat) (database : Outcome Unit String)
  | finish (worker : Nat) (interrupted : Bool) (finishedAt : DateTime)
  | notified (worker : Nat) (outcome : Outcome Unit String) (finishedAt : DateTime)
  | stop
  | quit (worker : Nat)

/-- The call of `ingest_api_batch` that a worker makes for a task. -/
def entryOf (records : List RecordRequest) (today : Date) (checked marked : ℚ) : Entry :=
  ⟨.batch records (some (keyPrefix today)), checked, marked⟩

def step (config : PoolConfig) (world : World) : Label → Option World
  | .start => ((Pool.machine Answer config).step world.pool .start).map ({ world with pool := · })
  | .submit task records queuedAt =>
    ((Pool.machine Answer config).step world.pool (.submit task records queuedAt)).map ({ world with pool := · })
  | .dequeue worker startedAt today checked marked => do
    -- The job starts in the same step, up to the await of its insert.
    let pool ← (Pool.machine Answer config).step world.pool (.dequeue worker startedAt)
    match pool.workers[worker]? with
    | some (.processing task records) =>
      let jobs ← Jobs.machine.step world.jobs (.arrive task (entryOf records today checked marked))
      return { pool, jobs }
    -- The worker has ended with a `KeyError`, and no job is called.
    | _ => return { world with pool }
  | .write worker database =>
    match world.pool.workers[worker]? with
    | some (.processing task _) =>
      (Jobs.machine.step world.jobs (.settle task database)).map ({ world with jobs := · })
    | _ => none
  | .finish worker interrupted finishedAt =>
    match world.pool.workers[worker]? with
    | some (.processing task _) => do
      let answer ← (world.jobs.calls task).answer
      -- The session is closed in between, where the worker can be cancelled.
      let outcome := if interrupted then .cancelled else processorOutcome answer
      let pool ← (Pool.machine Answer config).step world.pool (.finish worker outcome finishedAt)
      return { world with pool }
    | _ => none
  | .notified worker outcome finishedAt =>
    ((Pool.machine Answer config).step world.pool (.notified worker outcome finishedAt)).map ({ world with pool := · })
  | .stop => ((Pool.machine Answer config).step world.pool .stop).map ({ world with pool := · })
  | .quit worker => ((Pool.machine Answer config).step world.pool (.quit worker)).map ({ world with pool := · })

def machine (config : PoolConfig) : Machine World Label := ⟨step config⟩

variable {config : PoolConfig} {before after : World} {label : Label}

theorem dequeue_step {worker : Nat} {startedAt : DateTime} {today : Date} {checked marked : ℚ} {task : TaskId}
    {records : List RecordRequest}
    (stepped : (machine config).step before (.dequeue worker startedAt today checked marked) = some after)
    (processing : after.pool.workers[worker]? = some (.processing task records)) :
    before.pool.queue.head? = some (task, records) ∧
      Jobs.machine.step before.jobs (.arrive task (entryOf records today checked marked)) = some after.jobs := by
  simp only [DefaultPool.machine, DefaultPool.step, Option.bind_eq_bind, Option.bind_eq_some_iff] at stepped
  obtain ⟨pool, taken, stepped⟩ := stepped
  split at stepped
  next other items working =>
    obtain ⟨jobs, arrived, stepped⟩ := Option.bind_eq_some_iff.mp stepped
    cases stepped
    rw [processing] at working
    cases working
    exact ⟨Pool.dequeue_head taken processing, arrived⟩
  next idle =>
    cases stepped
    exact absurd processing (idle task records)

/-- The jobs of a pool only take steps of their own machine: a batch arrives
when a worker takes its task, and its insert settles when the worker's does. -/
theorem jobs_step (stepped : (machine config).step before label = some after) :
    after.jobs = before.jobs ∨
    (∃ worker database task, label = .write worker database ∧
      Jobs.machine.step before.jobs (.settle task database) = some after.jobs) ∨
    (∃ worker startedAt today checked marked task records,
      label = .dequeue worker startedAt today checked marked ∧
      before.pool.queue.head? = some (task, records) ∧
      Jobs.machine.step before.jobs (.arrive task (entryOf records today checked marked)) = some after.jobs) := by
  cases label with
  | dequeue worker startedAt today checked marked =>
    by_cases processing : ∃ task records, after.pool.workers[worker]? = some (.processing task records)
    · obtain ⟨task, records, processing⟩ := processing
      obtain ⟨head, arrived⟩ := dequeue_step stepped processing
      exact .inr (.inr ⟨worker, startedAt, today, checked, marked, task, records, rfl, head, arrived⟩)
    · simp only [DefaultPool.machine, DefaultPool.step, Option.bind_eq_bind, Option.bind_eq_some_iff] at stepped
      obtain ⟨pool, -, stepped⟩ := stepped
      split at stepped
      next task records working =>
        obtain ⟨jobs, -, stepped⟩ := Option.bind_eq_some_iff.mp stepped
        cases stepped
        exact absurd ⟨task, records, working⟩ processing
      next => cases stepped; exact .inl rfl
  | write worker database =>
    simp only [DefaultPool.machine, DefaultPool.step] at stepped
    split at stepped
    next task records _ =>
      obtain ⟨jobs, settled, rfl⟩ := Option.map_eq_some_iff.mp stepped
      exact .inr (.inl ⟨worker, database, task, rfl, settled⟩)
    next => cases stepped
  | finish worker interrupted finishedAt =>
    simp only [DefaultPool.machine, DefaultPool.step] at stepped
    split at stepped
    next =>
      simp only [Option.bind_eq_bind, Option.bind_eq_some_iff] at stepped
      obtain ⟨-, -, pool, -, stepped⟩ := stepped
      cases stepped
      exact .inl rfl
    next => cases stepped
  | start | submit | notified | stop | quit =>
    simp only [DefaultPool.machine, DefaultPool.step, Option.map_eq_some_iff] at stepped
    obtain ⟨pool, -, rfl⟩ := stepped
    exact .inl rfl

/-- The pool only takes steps of its own machine. What it submits is submitted to
it, and its processor raises what the answer of the job raises. -/
theorem pool_step (stepped : (machine config).step before label = some after) :
    after.pool = before.pool ∨ ∃ step, (Pool.machine Answer config).step before.pool step = some after.pool ∧
      (∀ task records queuedAt, step = .submit task records queuedAt → label = .submit task records queuedAt) ∧
      ∀ worker error finishedAt, step = .finish worker (.raised error) finishedAt →
        ∃ task records, before.pool.workers[worker]? = some (.processing task records) ∧
          ∃ answer, (before.jobs.calls task).answer = some answer ∧ processorOutcome answer = .raised error := by
  cases label with
  | dequeue worker startedAt today checked marked =>
    simp only [DefaultPool.machine, DefaultPool.step, Option.bind_eq_bind, Option.bind_eq_some_iff] at stepped
    obtain ⟨pool, taken, stepped⟩ := stepped
    have same : after.pool = pool := by
      split at stepped
      next =>
        obtain ⟨jobs, -, stepped⟩ := Option.bind_eq_some_iff.mp stepped
        cases stepped
        rfl
      next => cases stepped; rfl
    rw [same]
    exact .inr ⟨_, taken, (by intro _ _ _ same; cases same), (by intro _ _ _ same; cases same)⟩
  | write worker database =>
    simp only [DefaultPool.machine, DefaultPool.step] at stepped
    split at stepped
    next =>
      obtain ⟨jobs, -, rfl⟩ := Option.map_eq_some_iff.mp stepped
      exact .inl rfl
    next => cases stepped
  | finish worker interrupted finishedAt =>
    simp only [DefaultPool.machine, DefaultPool.step] at stepped
    split at stepped
    next task records processing =>
      simp only [Option.bind_eq_bind, Option.bind_eq_some_iff] at stepped
      obtain ⟨answer, answered, pool, finished, stepped⟩ := stepped
      cases stepped
      refine .inr ⟨_, finished, (by intro _ _ _ same; cases same), ?_⟩
      intro other error time same
      cases interrupted with
      | true => cases same
      | false =>
        simp only [Bool.false_eq_true, ↓reduceIte, Pool.Label.finish.injEq] at same
        obtain ⟨rfl, outcome, rfl⟩ := same
        exact ⟨task, records, processing, answer, answered, outcome⟩
    next => cases stepped
  | start | submit | notified | stop | quit =>
    simp only [DefaultPool.machine, DefaultPool.step, Option.map_eq_some_iff] at stepped
    obtain ⟨pool, moved, rfl⟩ := stepped
    exact .inr ⟨_, moved, (by intro _ _ _ same; cases same <;> rfl), (by intro _ _ _ same; cases same)⟩

/-! ## Status and write -/

/-- How `create_records_batch` ended for the task, if it has. -/
def World.wrote (world : World) (task : TaskId) : Option (Outcome Unit String) :=
  match world.jobs.calls task with
  | .ended _ insert => some insert
  | .idle | .suppressed _ | .inserting _ => none

/-- A task whose write raised does not count as succeeded: once finished it is
failed with that error, and the failure callback, if there is one, was called
for it once. A task counts as succeeded only if its write did not raise. -/
def Truthful (config : PoolConfig) (world : World) : Prop :=
  ∀ task status, world.pool.tasks task = some status →
    (∀ error, world.wrote task = some (.raised error) → status.status ≠ .succeeded ∧
      (status.finishedAt.isSome → status.status = .failed ∧ status.error = some error ∧
        (config.notifies → world.pool.notifications.count task = 1))) ∧
    (status.status = .succeeded → ∀ error, world.wrote task ≠ some (.raised error))

def WritesSucceeded (world : World) : Prop :=
  ∀ task status, world.pool.tasks task = some status → status.finishedAt.isSome →
    ∀ error, world.wrote task ≠ some (.raised error)

/-- Every call is one of `ingest_api_batch`, which raises nothing, so no task
ever fails; and a task that succeeded is finished. -/
structure NeverFails (world : World) : Prop where
  batches : ∀ task entry, (world.jobs.calls task).entry = some entry →
    ∃ records pre, entry.job = .batch records pre
  statuses : ∀ task status, world.pool.tasks task = some status →
    status.status ≠ .failed ∧ (status.status = .succeeded → status.finishedAt.isSome)

theorem neverFails_initial (ttlSeconds clock : ℚ) : NeverFails (.initial config ttlSeconds clock) where
  batches := by intro task entry arrived; cases arrived
  statuses := by
    intro task status found
    simp [World.initial, Pool.start, Pool.empty] at found

theorem NeverFails.answer (never : NeverFails before) {task : TaskId} {answer : Answer} {error : String}
    (answered : (before.jobs.calls task).answer = some answer) : processorOutcome answer ≠ .raised error := by
  cases call : before.jobs.calls task with
  | idle | inserting => rw [call] at answered; cases answered
  | suppressed entry =>
    obtain ⟨records, pre, batch⟩ := never.batches task entry (by rw [call]; rfl)
    rw [call] at answered
    simp only [Progress.answer, batch, Job.duplicateAnswer] at answered
    cases answered
    simp [processorOutcome]
  | ended entry insert =>
    obtain ⟨records, pre, batch⟩ := never.batches task entry (by rw [call]; rfl)
    rw [call] at answered
    simp only [Progress.answer, batch] at answered
    cases insert <;> cases answered <;> simp [Job.answer, processorOutcome]

theorem NeverFails.step (never : NeverFails before)
    (stepped : (machine config).step before label = some after) : NeverFails after where
  batches := by
    intro task entry arrived
    rcases jobs_step stepped with same | ⟨worker, database, other, -, settled⟩ |
      ⟨worker, startedAt, today, checked, marked, other, records, -, -, enters⟩
    · rw [same] at arrived
      exact never.batches task entry arrived
    · rcases Jobs.entry_step settled arrived with old | new
      · exact never.batches task entry old
      · cases new
    · rcases Jobs.entry_step enters arrived with old | new
      · exact never.batches task entry old
      · cases new
        exact ⟨records, _, rfl⟩
  statuses := by
    intro task status found
    rcases pool_step stepped with same | ⟨move, moved, -, raises⟩
    · rw [same] at found
      exact never.statuses task status found
    · rcases Pool.step_status moved found with old | change
      · exact never.statuses task status old
      · -- Only a processor that raises makes a task fail.
        cases old : before.pool.tasks task <;> rw [old] at change <;> cases change
        case submitted => simp
        case started => simp
        case succeeded => simp
        case cancelled => simp
        case failed status worker error finishedAt _ =>
          obtain ⟨other, -, -, answer, answered, raised⟩ := raises worker error finishedAt rfl
          exact absurd raised (never.answer answered)
        case failedQuietly status worker error finishedAt _ =>
          obtain ⟨other, -, -, answer, answered, raised⟩ := raises worker error finishedAt rfl
          exact absurd raised (never.answer answered)
        -- A callback changes no state, it only finishes the task.
        case notified status worker outcome finishedAt =>
          exact ⟨(never.statuses task status old).1, fun _ => rfl⟩

theorem NeverFails.truthful_iff {world : World} (never : NeverFails world) :
    Truthful config world ↔ WritesSucceeded world := by
  constructor
  · intro truthful task status found finished error raised
    obtain ⟨failed, -, -⟩ := ((truthful task status found).1 error raised).2 finished
    exact (never.statuses task status found).1 failed
  · intro writes task status found
    obtain ⟨-, finished⟩ := never.statuses task status found
    refine ⟨fun error raised => ⟨fun succeeded => ?_, fun done => ?_⟩, fun succeeded => ?_⟩
    · exact writes task status found (finished succeeded) error raised
    · exact absurd raised (writes task status found done error)
    · exact writes task status found (finished succeeded)

/-- In every run, the statuses tell the truth throughout exactly if no write of
a finished task has raised: the exception ends up in the result of the job. -/
theorem statuses_truthful_iff (config : PoolConfig) (ttlSeconds clock : ℚ) (labels : List Label) :
    (machine config).Throughout (.initial config ttlSeconds clock) labels (Truthful config) ↔
      (machine config).Throughout (.initial config ttlSeconds clock) labels WritesSucceeded := by
  apply Machine.throughout_congr NeverFails (neverFails_initial ttlSeconds clock)
  · intro before label after never stepped
    exact never.step stepped
  · intro world never
    exact never.truthful_iff

def noon : DateTime := january 12

def failingWrite : List Label :=
  [.submit 0 [⟨"sensor", noon, [], []⟩] noon, .dequeue 0 noon noon.date 0 0,
    .write 0 (.raised "connection lost"), .finish 0 false noon]

theorem failing_write_succeeds :
    ¬ (machine ⟨1, 10, 10, true⟩).Throughout (.initial ⟨1, 10, 10, true⟩ 3600 0) failingWrite
      (Truthful ⟨1, 10, 10, true⟩) := by
  intro throughout
  have untruthful : ((machine ⟨1, 10, 10, true⟩).run (.initial ⟨1, 10, 10, true⟩ 3600 0) failingWrite).any
      fun world => world.wrote 0 = some (.raised "connection lost") ∧
        (world.pool.tasks 0).any fun status => status.status = .succeeded := by decide +kernel
  obtain ⟨world, ran, untruthful⟩ := (Option.any_eq_true _ _).mp untruthful
  obtain ⟨raised, succeeded⟩ := of_decide_eq_true untruthful
  obtain ⟨status, found, succeeded⟩ := (Option.any_eq_true _ _).mp succeeded
  exact (throughout failingWrite [] world (by simp) ran 0 status found).2 (of_decide_eq_true succeeded)
    "connection lost" raised

/-! ## Batches that are dropped as duplicates -/

theorem ordered_run {ttlSeconds clock : ℚ} {labels : List Label} {final : World}
    (ran : (machine config).run (.initial config ttlSeconds clock) labels = some final) :
    Jobs.Ordered final.jobs := by
  apply Machine.invariant_of_step (fun world => Jobs.Ordered world.jobs) (Jobs.ordered_initial ttlSeconds clock) ?_ ran
  intro before label after held stepped
  rcases jobs_step stepped with same | ⟨_, _, _, _, settled⟩ | ⟨_, _, _, _, _, _, _, _, _, arrived⟩
  · rw [same]; exact held
  · exact held.step settled
  · exact held.step arrived

theorem submitted_run (Submitted : TaskId → List RecordRequest → Prop) {ttlSeconds clock : ℚ}
    {labels : List Label} {final : World}
    (submits : ∀ task records queuedAt, .submit task records queuedAt ∈ labels → Submitted task records)
    (ran : (machine config).run (.initial config ttlSeconds clock) labels = some final) {task : TaskId}
    {entry : Entry} (arrived : (final.jobs.calls task).entry = some entry) :
    ∃ records today checked marked, Submitted task records ∧ entry = entryOf records today checked marked := by
  have every : (machine config).Every (.initial config ttlSeconds clock) labels fun _ _ label _ =>
      ∀ task records queuedAt, label = .submit task records queuedAt → Submitted task records := by
    intro earlier label later before after split _ _ task records queuedAt same
    exact submits task records queuedAt (by simp [split, same])
  refine (Machine.invariant (fun world =>
    (∀ task records, (task, records) ∈ world.pool.queue → Submitted task records) ∧
    ∀ task entry, (world.jobs.calls task).entry = some entry →
      ∃ records today checked marked, Submitted task records ∧ entry = entryOf records today checked marked)
    ?_ every ?_ ran).2 task entry arrived
  · refine ⟨fun task records member => ?_, fun task entry arrived => by cases arrived⟩
    simp [World.initial, Pool.start, Pool.empty] at member
  · intro earlier before label after held submits stepped
    obtain ⟨queued, called⟩ := held
    refine ⟨fun task records member => ?_, fun task entry arrived => ?_⟩
    · rcases pool_step stepped with same | ⟨move, moved, submitted, -⟩
      · rw [same] at member
        exact queued task records member
      · rcases Pool.step_queue moved member with old | ⟨queuedAt, new⟩
        · exact queued task records old
        · exact submits task records queuedAt (submitted task records queuedAt new)
    · rcases jobs_step stepped with same | ⟨_, _, _, _, settled⟩ |
        ⟨_, _, today, checked, marked, other, records, _, head, enters⟩
      · rw [same] at arrived
        exact called task entry arrived
      · rcases Jobs.entry_step settled arrived with old | new
        · exact called task entry old
        · cases new
      · rcases Jobs.entry_step enters arrived with old | new
        · exact called task entry old
        · cases new
          exact ⟨records, today, checked, marked, queued task records (List.mem_of_head? head), rfl⟩

def duplicateAnswer : Answer := .summary 0 0 (some "Batch already processed (duplicate key)")

/-- A task is answered as a duplicate only after a batch with the same requests. -/
def DropsOnlyRepeats (before : World) (label : Label) (after : World) : Prop :=
  ∀ worker startedAt today checked marked task records,
    label = .dequeue worker startedAt today checked marked →
    after.pool.workers[worker]? = some (.processing task records) →
    (after.jobs.calls task).answer = some duplicateAnswer → Jobs.InsertedBefore before.jobs records checked

/-- No worker takes a batch while its key is held for other requests, or for an
insert that has not ended. -/
def TakesKeyHeldForSame (before : World) (label : Label) : Prop :=
  ∀ worker startedAt today checked marked task records,
    label = .dequeue worker startedAt today checked marked →
    before.pool.queue.head? = some (task, records) →
    Jobs.HeldForSame before.jobs (batchKey (keyPrefix today) records) records checked

theorem dedupKey_entryOf (records : List RecordRequest) (today : Date) (checked marked : ℚ) :
    (entryOf records today checked marked).job.dedupKey = some (batchKey (keyPrefix today) records) := by
  have nonempty : keyPrefix today ≠ "" := by
    intro empty
    have codes := congrArg String.toList empty
    simp [keyPrefix] at codes
  simp [entryOf, Job.dedupKey, given, nonempty]

/-- Batches are not lost to a false duplicate: in every run of the pool whose
workers take no batch while its key is held for other requests or for an insert
that has not ended; and in a run of direct calls with one prefix, exactly under
that condition. -/
theorem batches_not_dropped (config : PoolConfig) (ttlSeconds clock : ℚ) (labels : List Label)
    (keyPrefix : String) (calls : List Jobs.Label) :
    ((machine config).Every (.initial config ttlSeconds clock) labels
        (fun _ before label _ => TakesKeyHeldForSame before label) →
      (machine config).Every (.initial config ttlSeconds clock) labels fun _ => DropsOnlyRepeats) ∧
    ((∀ label ∈ calls, Jobs.Direct keyPrefix label) →
      (Jobs.machine.Every (.initial ttlSeconds clock) calls (fun _ => Jobs.DropsOnlyRepeats) ↔
        Jobs.machine.Every (.initial ttlSeconds clock) calls
          fun _ before label _ => Jobs.FindsKeyHeldForSame before label)) := by
  constructor
  · intro every
    refine every.mono ?_
    intro earlier before label after ran stepped held worker startedAt today checked marked task records same
      processing answered
    subst same
    obtain ⟨head, arrived⟩ := dequeue_step stepped processing
    have held := held worker startedAt today checked marked task records rfl head
    refine (ordered_run ran).drops_only_repeats arrived ?_ task _ records rfl rfl ?_
    -- The call that arrives is the one of the task, under its own key.
    · intro call entry requests key same batch keyed
      cases same
      cases batch
      rw [dedupKey_entryOf] at keyed
      cases keyed
      exact held
    · -- An arrival that was not suppressed has no answer yet.
      obtain ⟨-, -, -, ⟨-, -, -, -, -, calls⟩ | ⟨-, -, -, -, calls⟩⟩ := Jobs.arrive_step arrived
      · rw [calls, Function.update_self]
      · rw [calls, Function.update_self] at answered
        cases answered
  · intro direct
    exact Jobs.direct_drops_only_repeats_iff direct

def morning : DateTime := january 9

def noonSeconds : ℚ := 1767268800

def onePool : PoolConfig := ⟨1, 10, 10, true⟩

def secondSubmitted (records : List RecordRequest) : List Label :=
  [.submit 0 [⟨"sensor", noon, [], []⟩] noon, .dequeue 0 noon noon.date noonSeconds noonSeconds,
    .write 0 (.returned ()), .finish 0 false noon, .submit 1 records noon]

def secondTaken : Label := .dequeue 0 noon noon.date (noonSeconds + 1) (noonSeconds + 1)

theorem second_submitted {records : List RecordRequest} {before : World}
    (ran : (machine onePool).run (.initial onePool 3600 0) (secondSubmitted records) = some before) {task : TaskId}
    {entry : Entry} (arrived : (before.jobs.calls task).entry = some entry) :
    task = 0 ∧ entry.job.batchRequests = some [⟨"sensor", noon, [], []⟩] ∨ task = 1 := by
  have submits : ∀ task items queuedAt, Label.submit task items queuedAt ∈ secondSubmitted records →
      task = 0 ∧ items = [⟨"sensor", noon, [], []⟩] ∨ task = 1 := by
    intro task items queuedAt member
    simp only [secondSubmitted, List.mem_cons, Label.submit.injEq, reduceCtorEq, List.not_mem_nil, or_false,
      false_or] at member
    rcases member with ⟨first, same, -⟩ | ⟨second, -⟩
    · exact .inl ⟨first, same⟩
    · exact .inr second
  obtain ⟨items, today, checked, marked, submitted, rfl⟩ := submitted_run _ submits ran arrived
  rcases submitted with ⟨first, rfl⟩ | second
  · exact .inl ⟨first, rfl⟩
  · exact .inr second

/-- Another reading, of the morning, is dropped because it comes alone too. -/
theorem different_batch_dropped :
    ¬ (machine onePool).Every (.initial onePool 3600 0)
      (secondSubmitted [⟨"sensor", morning, [], []⟩] ++ [secondTaken]) fun _ => DropsOnlyRepeats := by
  intro every
  have dropped : ((machine onePool).run (.initial onePool 3600 0)
      (secondSubmitted [⟨"sensor", morning, [], []⟩])).any fun before =>
        before.jobs.calls 1 = .idle ∧ ((machine onePool).step before secondTaken).any fun after =>
          after.pool.workers[0]? = some (.processing 1 [⟨"sensor", morning, [], []⟩]) ∧
            (after.jobs.calls 1).answer = some duplicateAnswer := by decide +kernel
  obtain ⟨before, ran, dropped⟩ := (Option.any_eq_true _ _).mp dropped
  obtain ⟨idle, dropped⟩ := of_decide_eq_true dropped
  obtain ⟨after, stepped, dropped⟩ := (Option.any_eq_true _ _).mp dropped
  obtain ⟨processing, answered⟩ := of_decide_eq_true dropped
  obtain ⟨task, entry, ended, batch, -⟩ := every _ secondTaken [] before after rfl ran stepped 0 noon noon.date
    (noonSeconds + 1) (noonSeconds + 1) 1 [⟨"sensor", morning, [], []⟩] rfl processing answered
  have arrived : (before.jobs.calls task).entry = some entry := by rw [ended]; rfl
  rcases second_submitted ran arrived with ⟨-, first⟩ | rfl
  · rw [first] at batch
    simp [morning, noon, january] at batch
  · rw [idle] at ended
    cases ended

/-- The same reading is dropped, and rightly so. -/
theorem same_batch_dropped :
    (machine onePool).Every (.initial onePool 3600 0)
      (secondSubmitted [⟨"sensor", noon, [], []⟩] ++ [secondTaken]) fun _ => DropsOnlyRepeats := by
  apply (batches_not_dropped onePool 3600 0 _ "bg-batch" []).1
  rw [show secondSubmitted [⟨"sensor", noon, [], []⟩] = [] ++ [_] ++ [_] ++ [_] ++ [_] ++ [_] from rfl]
  simp only [Machine.every_concat]
  refine ⟨⟨⟨⟨⟨⟨Machine.every_nil, ?_⟩, ?_⟩, ?_⟩, ?_⟩, ?_⟩, ?_⟩
  case refine_1 | refine_3 | refine_4 | refine_5 =>
    intro before after _ _ worker startedAt today checked marked task records same
    cases same
  case refine_2 =>
    -- Nothing has claimed a key when the first task is taken.
    intro before after ran _ worker startedAt today checked marked task records _ _ call entry claims
    obtain ⟨start, empty, submitted⟩ := Machine.run_concat.mp ran
    cases empty
    rcases jobs_step submitted with same | ⟨_, _, _, same, -⟩ | ⟨_, _, _, _, _, _, _, same, -⟩
    · rw [Jobs.Claims, same] at claims
      cases claims.1
    · cases same
    · cases same
  case refine_6 =>
    intro before after ran _ worker startedAt today checked marked task records same head call entry claims _
    have calls : ((machine onePool).run (.initial onePool 3600 0)
        (secondSubmitted [⟨"sensor", noon, [], []⟩])).any fun before => before.jobs.calls 1 = .idle ∧
          before.jobs.calls 0 = .ended (entryOf [⟨"sensor", noon, [], []⟩] noon.date noonSeconds noonSeconds)
            (.returned ()) ∧ before.pool.queue.head? = some (1, [⟨"sensor", noon, [], []⟩]) := by decide +kernel
    obtain ⟨world, ran', calls⟩ := (Option.any_eq_true _ _).mp calls
    cases ran.symm.trans ran'
    obtain ⟨second, first, queued⟩ := of_decide_eq_true calls
    cases head.symm.trans queued
    have arrived := Jobs.entry_of_claimed claims.1
    rcases second_submitted ran' arrived with ⟨rfl, requests⟩ | rfl
    · have claimed := claims.1
      rw [first] at claimed
      cases claimed
      exact ⟨requests, first⟩
    · rw [second] at arrived
      cases arrived

end DataPipeline.Ingestor.DefaultPool
