import DataPipeline.Library.Execution
import DataPipeline.Ingestor.Schemas

/-! The worker pool of `ingestor/core/background_workers.py`.

Status objects outlive the history: a worker that took a task holds on to its
status after the history has been trimmed. So `tasks` keeps every status object
ever made, while `order`, whose ids are also the keys of `_statuses`, says which
of them can still be looked up.
-/

set_option autoImplicit false

namespace DataPipeline.Ingestor

open Execution Calendar

inductive TaskState where
  | queued
  | running
  | succeeded
  | failed
  | cancelled
  deriving DecidableEq, Repr

/-- Task ids stand for distinct UUIDs. -/
abbrev TaskId := Nat

/-- `result` is what the processor returned. -/
structure BackgroundTaskStatus (Result : Type) where
  taskId : TaskId
  status : TaskState
  batchSize : Nat
  queuedAt : DateTime
  startedAt : Option DateTime := none
  finishedAt : Option DateTime := none
  result : Option Result := none
  error : Option String := none

/-- Where a worker loop stands: at the queue, in the processor, in
`on_task_failed`, or ended. -/
inductive Worker where
  | waiting
  | processing (task : TaskId) (records : List RecordRequest)
  | notifying (task : TaskId)
  | ended
  deriving DecidableEq

/-- The constructor arguments, with whether a failure callback was given. -/
structure PoolConfig where
  workerCount : Nat
  queueSize : Nat
  maxTrackedTasks : Nat
  notifies : Bool
  deriving DecidableEq

structure Pool (Result : Type) where
  running : Bool
  queue : List (TaskId × List RecordRequest)
  tasks : TaskId → Option (BackgroundTaskStatus Result)
  order : List TaskId
  workers : List Worker
  /-- The tasks `on_task_failed` was called for, the latest first. -/
  notifications : List TaskId

namespace Pool

variable {Result : Type}

def empty : Pool Result := ⟨false, [], fun _ => none, [], [], []⟩

def start (config : PoolConfig) (pool : Pool Result) : Pool Result :=
  if pool.running then pool
  else { pool with running := true, workers := List.replicate config.workerCount .waiting }

/-- `asyncio.Queue.full`: a queue without a positive size is never full. -/
def full (config : PoolConfig) (pool : Pool Result) : Bool :=
  0 < config.queueSize && config.queueSize ≤ pool.queue.length

def trimStatusHistory (maxTrackedTasks : Nat) : List TaskId → List TaskId
  | [] => []
  | oldest :: order =>
    if maxTrackedTasks < order.length + 1 then trimStatusHistory maxTrackedTasks order else oldest :: order

def submitBatchIngest (config : PoolConfig) (pool : Pool Result) (task : TaskId)
    (records : List RecordRequest) (queuedAt : DateTime) : Except String (Pool Result) :=
  if !pool.running then .error "Background worker pool is not running"
  else if pool.full config then .error "Background queue is full"
  else
    let status : BackgroundTaskStatus Result :=
      { taskId := task, status := .queued, batchSize := records.length, queuedAt }
    .ok { pool with
          tasks := Function.update pool.tasks task (some status)
          order := trimStatusHistory config.maxTrackedTasks (pool.order ++ [task])
          queue := pool.queue ++ [(task, records)] }

def getTaskStatus (pool : Pool Result) (task : TaskId) : Option (BackgroundTaskStatus Result) :=
  if task ∈ pool.order then pool.tasks task else none

def setStatus (pool : Pool Result) (task : TaskId)
    (change : BackgroundTaskStatus Result → BackgroundTaskStatus Result) : Pool Result :=
  { pool with tasks := Function.update pool.tasks task ((pool.tasks task).map change) }

def setWorker (pool : Pool Result) (worker : Nat) (state : Worker) : Pool Result :=
  { pool with workers := pool.workers.set worker state }

/-- A worker takes the head of the queue. A task that the history has
forgotten is a `KeyError`, which ends the loop. -/
def dequeue (pool : Pool Result) (worker : Nat) (startedAt : DateTime) : Option (Pool Result) :=
  match pool.workers[worker]?, pool.queue with
  | some .waiting, (task, records) :: queue =>
    let pool := { pool with queue }
    if task ∈ pool.order then
      some <| (pool.setStatus task fun status => { status with status := .running, startedAt := some startedAt })
        |>.setWorker worker (.processing task records)
    -- Nothing in the loop catches the `KeyError` of `_statuses[task_id]`.
    else some (pool.setWorker worker .ended)
  | _, _ => none

def finish (config : PoolConfig) (pool : Pool Result) (worker : Nat) (outcome : Outcome Result String)
    (finishedAt : DateTime) : Option (Pool Result) :=
  match pool.workers[worker]? with
  | some (.processing task _) =>
    match outcome with
    | .returned result =>
      some <| (pool.setStatus task fun status =>
          { status with status := .succeeded, result := some result, finishedAt := some finishedAt })
        |>.setWorker worker .waiting
    | .cancelled =>
      some <| (pool.setStatus task fun status =>
          { status with status := .cancelled, error := some "worker task cancelled"
                        finishedAt := some finishedAt })
        |>.setWorker worker .ended
    -- `finished_at` is set after the callback, in the `finally` clause.
    | .raised error =>
      if config.notifies then
        let failed := pool.setStatus task fun status => { status with status := .failed, error := some error }
        some { failed.setWorker worker (.notifying task) with notifications := task :: pool.notifications }
      else
        some <| (pool.setStatus task fun status =>
            { status with status := .failed, error := some error, finishedAt := some finishedAt })
          |>.setWorker worker .waiting
  | _ => none

/-- The failure callback ends. An exception of it is logged only. -/
def notified (pool : Pool Result) (worker : Nat) (outcome : Outcome Unit String) (finishedAt : DateTime) :
    Option (Pool Result) :=
  match pool.workers[worker]? with
  | some (.notifying task) =>
    -- Only a cancellation leaves the handler, and the loop with it.
    some <| (pool.setStatus task fun status => { status with finishedAt := some finishedAt })
      |>.setWorker worker (if outcome = .cancelled then .ended else .waiting)
  | _ => none

/-- `stop` has cancelled a worker that waits for the queue. -/
def quit (pool : Pool Result) (worker : Nat) : Option (Pool Result) :=
  match pool.workers[worker]? with
  | some .waiting => some (pool.setWorker worker .ended)
  | _ => none

inductive Label (Result : Type) where
  | start
  | submit (task : TaskId) (records : List RecordRequest) (queuedAt : DateTime)
  | dequeue (worker : Nat) (startedAt : DateTime)
  | finish (worker : Nat) (outcome : Outcome Result String) (finishedAt : DateTime)
  | notified (worker : Nat) (outcome : Outcome Unit String) (finishedAt : DateTime)
  | stop
  | quit (worker : Nat)

/-- The pool starts again only when the loops of its last start have ended;
`stop` takes effect at once and its cancellations reach the workers one by one. -/
def step (config : PoolConfig) (pool : Pool Result) : Label Result → Option (Pool Result)
  | .start =>
    if pool.running ∨ ∀ worker ∈ pool.workers, worker = .ended then some (pool.start config) else none
  | .submit task records queuedAt =>
    if (pool.tasks task).isNone then (pool.submitBatchIngest config task records queuedAt).toOption else none
  | .dequeue worker startedAt => if pool.running then pool.dequeue worker startedAt else none
  | .finish worker outcome finishedAt => pool.finish config worker outcome finishedAt
  | .notified worker outcome finishedAt => pool.notified worker outcome finishedAt
  | .stop => some { pool with running := false }
  | .quit worker => if pool.running then none else pool.quit worker

def machine (Result : Type) (config : PoolConfig) : Machine (Pool Result) (Label Result) := ⟨step config⟩

variable {config : PoolConfig} {before after : Pool Result}

inductive Transition (config : PoolConfig) (before : Pool Result) : Label Result → Pool Result → Prop where
  | started (again : before.running = true ∨ ∀ worker ∈ before.workers, worker = .ended) :
      Transition config before .start (before.start config)
  | submitted (task : TaskId) (records : List RecordRequest) (queuedAt : DateTime)
      (fresh : before.tasks task = none) (running : before.running = true) (room : before.full config = false) :
      Transition config before (.submit task records queuedAt)
        { before with
          tasks := Function.update before.tasks task
            (some { taskId := task, status := .queued, batchSize := records.length, queuedAt })
          order := trimStatusHistory config.maxTrackedTasks (before.order ++ [task])
          queue := before.queue ++ [(task, records)] }
  | taken (worker : Nat) (startedAt : DateTime) (task : TaskId) (records : List RecordRequest)
      (queue : List (TaskId × List RecordRequest)) (running : before.running = true)
      (waits : before.workers[worker]? = some .waiting) (head : before.queue = (task, records) :: queue)
      (tracked : task ∈ before.order) :
      Transition config before (.dequeue worker startedAt)
        (({ before with queue }.setStatus task fun status =>
          { status with status := .running, startedAt := some startedAt }).setWorker worker (.processing task records))
  | forgotten (worker : Nat) (startedAt : DateTime) (task : TaskId) (records : List RecordRequest)
      (queue : List (TaskId × List RecordRequest)) (running : before.running = true)
      (waits : before.workers[worker]? = some .waiting) (head : before.queue = (task, records) :: queue)
      (untracked : task ∉ before.order) :
      Transition config before (.dequeue worker startedAt) ({ before with queue }.setWorker worker .ended)
  | succeeded (worker : Nat) (task : TaskId) (records : List RecordRequest) (result : Result) (finishedAt : DateTime)
      (busy : before.workers[worker]? = some (.processing task records)) :
      Transition config before (.finish worker (.returned result) finishedAt)
        ((before.setStatus task fun status =>
          { status with status := .succeeded, result := some result, finishedAt := some finishedAt }).setWorker
            worker .waiting)
  | cancelled (worker : Nat) (task : TaskId) (records : List RecordRequest) (finishedAt : DateTime)
      (busy : before.workers[worker]? = some (.processing task records)) :
      Transition config before (.finish worker .cancelled finishedAt)
        ((before.setStatus task fun status =>
          { status with status := .cancelled, error := some "worker task cancelled"
                        finishedAt := some finishedAt }).setWorker worker .ended)
  | failed (worker : Nat) (task : TaskId) (records : List RecordRequest) (error : String) (finishedAt : DateTime)
      (busy : before.workers[worker]? = some (.processing task records)) (notifies : config.notifies = true) :
      Transition config before (.finish worker (.raised error) finishedAt)
        { (before.setStatus task fun status => { status with status := .failed, error := some error }).setWorker
            worker (.notifying task) with notifications := task :: before.notifications }
  | failedQuietly (worker : Nat) (task : TaskId) (records : List RecordRequest) (error : String)
      (finishedAt : DateTime) (busy : before.workers[worker]? = some (.processing task records))
      (silent : config.notifies = false) :
      Transition config before (.finish worker (.raised error) finishedAt)
        ((before.setStatus task fun status =>
          { status with status := .failed, error := some error, finishedAt := some finishedAt }).setWorker
            worker .waiting)
  | notified (worker : Nat) (task : TaskId) (outcome : Outcome Unit String) (finishedAt : DateTime)
      (calls : before.workers[worker]? = some (.notifying task)) :
      Transition config before (.notified worker outcome finishedAt)
        ((before.setStatus task fun status => { status with finishedAt := some finishedAt }).setWorker worker
          (if outcome = .cancelled then .ended else .waiting))
  | stopped : Transition config before .stop { before with running := false }
  | quit (worker : Nat) (stopped : before.running = false) (waits : before.workers[worker]? = some .waiting) :
      Transition config before (.quit worker) (before.setWorker worker .ended)

theorem transition_of_step {label : Label Result}
    (stepped : (machine Result config).step before label = some after) : Transition config before label after := by
  cases label with
  | start =>
    simp only [machine, step, Option.ite_none_right_eq_some, Option.some.injEq] at stepped
    obtain ⟨again, rfl⟩ := stepped
    exact .started again
  | submit task records queuedAt =>
    simp only [machine, step, submitBatchIngest, Option.ite_none_right_eq_some] at stepped
    obtain ⟨fresh, stepped⟩ := stepped
    split at stepped
    next => cases stepped
    next running =>
      split at stepped
      next => cases stepped
      next room =>
        cases stepped
        exact .submitted task records queuedAt (Option.isNone_iff_eq_none.mp fresh) (by simpa using running)
          (by simpa using room)
  | dequeue worker startedAt =>
    simp only [machine, step, dequeue, Option.ite_none_right_eq_some] at stepped
    obtain ⟨running, stepped⟩ := stepped
    split at stepped
    next task records queue waits head =>
      split at stepped
      next tracked => cases stepped; exact .taken worker startedAt task records queue running waits head tracked
      next untracked => cases stepped; exact .forgotten worker startedAt task records queue running waits head untracked
    next => cases stepped
  | finish worker outcome finishedAt =>
    simp only [machine, step, finish] at stepped
    split at stepped
    next task records busy =>
      cases outcome with
      | returned result => cases stepped; exact .succeeded worker task records result finishedAt busy
      | cancelled => cases stepped; exact .cancelled worker task records finishedAt busy
      | raised error =>
        simp only at stepped
        split at stepped
        next notifies => cases stepped; exact .failed worker task records error finishedAt busy notifies
        next silent =>
          cases stepped
          exact .failedQuietly worker task records error finishedAt busy (by simpa using silent)
    next => cases stepped
  | notified worker outcome finishedAt =>
    simp only [machine, step, notified] at stepped
    split at stepped
    next task calls => cases stepped; exact .notified worker task outcome finishedAt calls
    next => cases stepped
  | stop => cases stepped; exact .stopped
  | quit worker =>
    simp only [machine, step, quit, Option.ite_none_left_eq_some] at stepped
    obtain ⟨stopped, stepped⟩ := stepped
    split at stepped
    next waits => cases stepped; exact .quit worker (by simpa using stopped) waits
    next => cases stepped

/-! ## Status objects -/

@[simp] theorem start_tasks (config : PoolConfig) (pool : Pool Result) :
    (pool.start config).tasks = pool.tasks := by
  unfold start
  split <;> rfl

@[simp] theorem start_queue (config : PoolConfig) (pool : Pool Result) :
    (pool.start config).queue = pool.queue := by
  unfold start
  split <;> rfl

inductive StatusChange (config : PoolConfig) :
    Label Result → Option (BackgroundTaskStatus Result) → BackgroundTaskStatus Result → Prop where
  | submitted (task : TaskId) (records : List RecordRequest) (queuedAt : DateTime) :
      StatusChange config (.submit task records queuedAt) none
        { taskId := task, status := .queued, batchSize := records.length, queuedAt }
  | started (worker : Nat) (startedAt : DateTime) (old : BackgroundTaskStatus Result) :
      StatusChange config (.dequeue worker startedAt) (some old)
        { old with status := .running, startedAt := some startedAt }
  | succeeded (worker : Nat) (result : Result) (finishedAt : DateTime) (old : BackgroundTaskStatus Result) :
      StatusChange config (.finish worker (.returned result) finishedAt) (some old)
        { old with status := .succeeded, result := some result, finishedAt := some finishedAt }
  | cancelled (worker : Nat) (finishedAt : DateTime) (old : BackgroundTaskStatus Result) :
      StatusChange config (.finish worker .cancelled finishedAt) (some old)
        { old with status := .cancelled, error := some "worker task cancelled", finishedAt := some finishedAt }
  | failed (worker : Nat) (error : String) (finishedAt : DateTime) (old : BackgroundTaskStatus Result) :
      config.notifies = true → StatusChange config (.finish worker (.raised error) finishedAt) (some old)
        { old with status := .failed, error := some error }
  | failedQuietly (worker : Nat) (error : String) (finishedAt : DateTime) (old : BackgroundTaskStatus Result) :
      config.notifies = false → StatusChange config (.finish worker (.raised error) finishedAt) (some old)
        { old with status := .failed, error := some error, finishedAt := some finishedAt }
  | notified (worker : Nat) (outcome : Outcome Unit String) (finishedAt : DateTime)
      (old : BackgroundTaskStatus Result) :
      StatusChange config (.notified worker outcome finishedAt) (some old)
        { old with finishedAt := some finishedAt }

theorem change_of_setStatus {pool : Pool Result} {label : Label Result} {task other : TaskId}
    {change : BackgroundTaskStatus Result → BackgroundTaskStatus Result} {status : BackgroundTaskStatus Result}
    (found : (pool.setStatus task change).tasks other = some status)
    (changes : ∀ old, StatusChange config label (some old) (change old)) :
    pool.tasks other = some status ∨ StatusChange config label (pool.tasks other) status := by
  simp only [setStatus, Function.update_apply] at found
  split at found
  next same =>
    obtain ⟨old, present, rfl⟩ := Option.map_eq_some_iff.mp found
    rw [same, present]
    exact .inr (changes old)
  next => exact .inl found

theorem step_status {label : Label Result} (stepped : (machine Result config).step before label = some after)
    {task : TaskId} {status : BackgroundTaskStatus Result} (found : after.tasks task = some status) :
    before.tasks task = some status ∨ StatusChange config label (before.tasks task) status := by
  cases transition_of_step stepped with
  | started => exact .inl (by simpa using found)
  | forgotten | stopped | quit => exact .inl found
  | submitted id records queuedAt fresh =>
    simp only [Function.update_apply] at found
    split at found
    next same =>
      cases found
      rw [same, fresh]
      exact .inr (.submitted id records queuedAt)
    next => exact .inl found
  | taken worker startedAt => exact change_of_setStatus found (.started worker startedAt)
  | succeeded worker _ _ result finishedAt => exact change_of_setStatus found (.succeeded worker result finishedAt)
  | cancelled worker _ _ finishedAt => exact change_of_setStatus found (.cancelled worker finishedAt)
  | failed worker _ _ error finishedAt _ notifies =>
    exact change_of_setStatus found fun old => .failed worker error finishedAt old notifies
  | failedQuietly worker _ _ error finishedAt _ silent =>
    exact change_of_setStatus found fun old => .failedQuietly worker error finishedAt old silent
  | notified worker _ outcome finishedAt => exact change_of_setStatus found (.notified worker outcome finishedAt)

/-! ## The queue -/

theorem dequeue_head {worker : Nat} {startedAt : DateTime} {task : TaskId} {records : List RecordRequest}
    (stepped : (machine Result config).step before (.dequeue worker startedAt) = some after)
    (processing : after.workers[worker]? = some (.processing task records)) :
    before.queue.head? = some (task, records) := by
  cases transition_of_step stepped with
  | taken _ _ other items queue _ waits head =>
    have inside : worker < before.workers.length := (List.getElem?_eq_some_iff.mp waits).1
    simp only [setWorker, setStatus, List.getElem?_set_self inside, Option.some.injEq,
      Worker.processing.injEq] at processing
    obtain ⟨rfl, rfl⟩ := processing
    rw [head, List.head?_cons]
  | forgotten _ _ _ _ _ _ waits =>
    -- The worker has ended and processes nothing.
    have inside : worker < before.workers.length := (List.getElem?_eq_some_iff.mp waits).1
    simp only [setWorker, List.getElem?_set_self inside, Option.some.injEq, reduceCtorEq] at processing

theorem step_queue {label : Label Result} (stepped : (machine Result config).step before label = some after)
    {task : TaskId} {records : List RecordRequest} (member : (task, records) ∈ after.queue) :
    (task, records) ∈ before.queue ∨ ∃ queuedAt, label = .submit task records queuedAt := by
  cases transition_of_step stepped with
  | started => exact .inl (by simpa using member)
  | submitted id items queuedAt =>
    rcases List.mem_append.mp member with old | new
    · exact .inl old
    · cases List.mem_singleton.mp new
      exact .inr ⟨queuedAt, rfl⟩
  | taken _ _ _ _ _ _ _ head | forgotten _ _ _ _ _ _ _ head =>
    rw [head]
    exact .inl (List.mem_cons_of_mem _ member)
  | succeeded | cancelled | failed | failedQuietly | notified | stopped | quit => exact .inl member

end Pool

end DataPipeline.Ingestor
