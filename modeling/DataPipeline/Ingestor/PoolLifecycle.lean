import DataPipeline.Ingestor.PoolAccounts

/-! The worker pool with its redundant state and its cancellations.

`_statuses` and `_order` are kept apart here, each changed where the source
changes it, and a loop that was cancelled is told so before it ends: it may
still end its task in another way, or swallow the cancellation and go on.
-/

set_option autoImplicit false

namespace DataPipeline.Ingestor

open Execution Calendar

/-- `statuses` holds the keys of `_statuses` and `current` the loops in
`_workers`, as positions in `workers`, which keeps every loop ever started. -/
structure BackgroundWorkerPool (Result : Type) extends Pool Result where
  statuses : List TaskId
  current : List Nat
  /-- The loops with a cancellation that has not reached them. -/
  cancelling : Nat → Bool
  /-- The calls of `stop` that wait, each for the loops it has cancelled. -/
  stopping : List (List Nat)

structure HealthSummary where
  running : Bool
  workerCount : Nat
  queueSize : Nat
  queueCapacity : Nat
  trackedTasks : Nat
  tasks : TaskState → Nat

namespace BackgroundWorkerPool

variable {Result : Type}

def empty : BackgroundWorkerPool Result := ⟨.empty, [], [], fun _ => false, []⟩

def start (config : PoolConfig) (pool : BackgroundWorkerPool Result) : BackgroundWorkerPool Result :=
  if pool.running then pool
  else
    { pool with
      running := true
      workers := pool.workers ++ List.replicate config.workerCount .waiting
      current := (List.range config.workerCount).map (pool.workers.length + ·) }

/-- `_trim_status_history`, of the order and the keys of the statuses. -/
def trimStatusHistory (maxTrackedTasks : Nat) : List TaskId → List TaskId → List TaskId × List TaskId
  | [], statuses => ([], statuses)
  | oldest :: order, statuses =>
    if maxTrackedTasks < order.length + 1 then trimStatusHistory maxTrackedTasks order (statuses.erase oldest)
    else (oldest :: order, statuses)

/-- `asyncio.Queue.put_nowait`, with `none` for `QueueFull`. -/
def putNowait (config : PoolConfig) (pool : BackgroundWorkerPool Result) (item : TaskId × List RecordRequest) :
    Option (BackgroundWorkerPool Result) :=
  if pool.full config then none else some { pool with queue := pool.queue ++ [item] }

/-- The answer, and the pool as the call leaves it, also by an exception. -/
def submitBatchIngest (config : PoolConfig) (pool : BackgroundWorkerPool Result) (task : TaskId)
    (records : List RecordRequest) (queuedAt : DateTime) :
    Except String (BackgroundTaskStatus Result) × BackgroundWorkerPool Result :=
  if !pool.running then (.error "Background worker pool is not running", pool)
  else if pool.full config then (.error "Background queue is full", pool)
  else
    let status : BackgroundTaskStatus Result :=
      { taskId := task, status := .queued, batchSize := records.length, queuedAt }
    let trimmed := trimStatusHistory config.maxTrackedTasks (pool.order ++ [task]) (pool.statuses ++ [task])
    let tracked : BackgroundWorkerPool Result :=
      { pool with
        tasks := Function.update pool.tasks task (some status)
        order := trimmed.1
        statuses := trimmed.2 }
    match tracked.putNowait config (task, records) with
    | none => (.error "QueueFull", tracked)
    | some queued => (.ok status, queued)

def getTaskStatus (pool : BackgroundWorkerPool Result) (task : TaskId) : Option (BackgroundTaskStatus Result) :=
  if task ∈ pool.statuses then pool.tasks task else none

def healthSummary (config : PoolConfig) (pool : BackgroundWorkerPool Result) : HealthSummary :=
  { running := pool.running
    workerCount := config.workerCount
    queueSize := pool.queue.length
    queueCapacity := config.queueSize
    trackedTasks := pool.statuses.length
    tasks := fun state => (pool.statuses.filterMap pool.getTaskStatus).countP (·.status = state) }

/-- A worker takes the head of the queue and looks its status up. -/
def dequeue (pool : BackgroundWorkerPool Result) (worker : Nat) (startedAt : DateTime) : Option (Pool Result) :=
  match pool.workers[worker]?, pool.queue with
  | some .waiting, (task, records) :: queue =>
    let popped := { pool.toPool with queue }
    if task ∈ pool.statuses then
      some <| (popped.setStatus task fun status => { status with status := .running, startedAt := some startedAt })
        |>.setWorker worker (.processing task records)
    else some (popped.setWorker worker .ended)
  | _, _ => none

/-- `stop` up to where it waits, for the loops that it has cancelled. A pool
that is not running is left as it is, and the call waits for nothing. -/
def stop (pool : BackgroundWorkerPool Result) : BackgroundWorkerPool Result :=
  if pool.running then
    { pool with
      running := false
      cancelling := fun worker =>
        pool.cancelling worker || (worker ∈ pool.current && pool.workers[worker]? != some .ended)
      stopping := pool.current :: pool.stopping }
  else pool

def awaited (pool : BackgroundWorkerPool Result) : List Nat := if pool.running then pool.current else []

def AllEnded (pool : Pool Result) (loops : List Nat) : Prop := ∀ worker ∈ loops, pool.workers[worker]? = some .ended

instance (pool : Pool Result) (loops : List Nat) : Decidable (AllEnded pool loops) :=
  inferInstanceAs (Decidable (∀ worker ∈ loops, pool.workers[worker]? = some .ended))

inductive Label (Result : Type) where
  | start
  | submit (task : TaskId) (records : List RecordRequest) (queuedAt : DateTime)
  | dequeue (worker : Nat) (startedAt : DateTime)
  | finish (worker : Nat) (outcome : Outcome Result String) (finishedAt : DateTime)
  | notified (worker : Nat) (outcome : Outcome Unit String) (finishedAt : DateTime)
  /-- The cancellation reaches a loop that waits for the queue. -/
  | quit (worker : Nat)
  /-- The processor or the failure callback catches the cancellation and goes on. -/
  | swallow (worker : Nat)
  | stop
  /-- A call of `stop` that waits returns. -/
  | stopped (call : Nat)
  deriving DecidableEq

/-- The cancellation of a loop has had its effect. -/
def reached (cancelling : Nat → Bool) (worker : Nat) : Nat → Bool := Function.update cancelling worker false

def step (config : PoolConfig) (pool : BackgroundWorkerPool Result) :
    Label Result → Option (BackgroundWorkerPool Result)
  | .start => some (pool.start config)
  | .submit task records queuedAt =>
    if (pool.tasks task).isNone then some (pool.submitBatchIngest config task records queuedAt).2 else none
  -- A cancelled loop does not come to the queue again.
  | .dequeue worker startedAt =>
    if pool.cancelling worker then none
    else (pool.dequeue worker startedAt).map fun next => { pool with toPool := next }
  | .finish worker outcome finishedAt =>
    (pool.finish config worker outcome finishedAt).map fun next =>
      { pool with toPool := next, cancelling := reached pool.cancelling worker }
  | .notified worker outcome finishedAt =>
    (pool.notified worker outcome finishedAt).map fun next =>
      { pool with toPool := next, cancelling := reached pool.cancelling worker }
  | .quit worker =>
    if pool.cancelling worker then
      (pool.quit worker).map fun next => { pool with toPool := next, cancelling := reached pool.cancelling worker }
    else none
  | .swallow worker =>
    if pool.cancelling worker ∧ (pool.workers[worker]?.bind Worker.held).isSome then
      some { pool with cancelling := reached pool.cancelling worker }
    else none
  | .stop => some pool.stop
  | .stopped call =>
    match pool.stopping[call]? with
    | some loops =>
      if AllEnded pool.toPool loops then some { pool with stopping := pool.stopping.eraseIdx call, current := [] }
      else none
    | none => none

def machine (Result : Type) (config : PoolConfig) : Machine (BackgroundWorkerPool Result) (Label Result) :=
  ⟨step config⟩

variable {config : PoolConfig} {before after pool : BackgroundWorkerPool Result} {task : TaskId}
  {records : List RecordRequest} {queuedAt : DateTime}

/-! ## What a submission does -/

theorem trimStatusHistory_same (maxTrackedTasks : Nat) (order : List TaskId) :
    trimStatusHistory maxTrackedTasks order order =
      (Pool.trimStatusHistory maxTrackedTasks order, Pool.trimStatusHistory maxTrackedTasks order) := by
  induction order with
  | nil => rfl
  | cons oldest order ih =>
    unfold trimStatusHistory Pool.trimStatusHistory
    split
    next => rw [List.erase_cons_head, ih]
    next => rfl

def accepted (config : PoolConfig) (pool : BackgroundWorkerPool Result) (task : TaskId)
    (records : List RecordRequest) (queuedAt : DateTime) : BackgroundWorkerPool Result :=
  let trimmed := trimStatusHistory config.maxTrackedTasks (pool.order ++ [task]) (pool.statuses ++ [task])
  { pool with
    tasks := Function.update pool.tasks task
      (some { taskId := task, status := .queued, batchSize := records.length, queuedAt })
    order := trimmed.1
    statuses := trimmed.2
    queue := pool.queue ++ [(task, records)] }

theorem accepted_tasks_of_ne {other : TaskId} (different : other ≠ task) :
    (pool.accepted config task records queuedAt).tasks other = pool.tasks other :=
  Function.update_of_ne different _ _

/-- A submission is answered with an error and leaves the pool as it was, or is
accepted while there is room: `put_nowait` never raises. -/
theorem submitBatchIngest_cases (config : PoolConfig) (pool : BackgroundWorkerPool Result) (task : TaskId)
    (records : List RecordRequest) (queuedAt : DateTime) :
    (∃ error, pool.submitBatchIngest config task records queuedAt = (.error error, pool) ∧
      (pool.running = false ∨ pool.full config = true)) ∨
    (∃ status, pool.submitBatchIngest config task records queuedAt =
      (.ok status, pool.accepted config task records queuedAt) ∧
        pool.running = true ∧ pool.full config = false) := by
  unfold submitBatchIngest
  split
  next stopped => exact .inl ⟨_, rfl, .inl (by simpa using stopped)⟩
  next running =>
    split
    next full => exact .inl ⟨_, rfl, .inr full⟩
    next room =>
      have room : pool.full config = false := by simpa using room
      refine .inr ⟨{ taskId := task, status := .queued, batchSize := records.length, queuedAt }, ?_,
        by simpa using running, room⟩
      -- The queue is as long as it was when it was found to have room.
      simp only [putNowait]
      rw [if_neg]
      · rfl
      · change ¬ pool.full config = true
        rw [room]
        exact Bool.false_ne_true

/-! ## What a step does -/

inductive Transition (config : PoolConfig) (before : BackgroundWorkerPool Result) :
    Label Result → BackgroundWorkerPool Result → Prop where
  | restarted : before.running = true → Transition config before .start before
  | started : before.running = false → Transition config before .start (before.start config)
  | submitted (task : TaskId) (records : List RecordRequest) (queuedAt : DateTime)
      (status : BackgroundTaskStatus Result)
      (answer : (before.submitBatchIngest config task records queuedAt).1 = .ok status)
      (fresh : before.tasks task = none) (room : before.full config = false) :
      Transition config before (.submit task records queuedAt) (before.accepted config task records queuedAt)
  | rejected (task : TaskId) (records : List RecordRequest) (queuedAt : DateTime) (error : String)
      (answer : (before.submitBatchIngest config task records queuedAt).1 = .error error) :
      Transition config before (.submit task records queuedAt) before
  | taken (worker : Nat) (startedAt : DateTime) (task : TaskId) (records : List RecordRequest)
      (queue : List (TaskId × List RecordRequest)) (waits : before.workers[worker]? = some .waiting)
      (head : before.queue = (task, records) :: queue) (tracked : task ∈ before.statuses) :
      Transition config before (.dequeue worker startedAt)
        { before with
          toPool := ({ before.toPool with queue }.setStatus task fun status =>
            { status with status := .running, startedAt := some startedAt }).setWorker worker
              (.processing task records) }
  | forgotten (worker : Nat) (startedAt : DateTime) (task : TaskId) (records : List RecordRequest)
      (queue : List (TaskId × List RecordRequest)) (waits : before.workers[worker]? = some .waiting)
      (head : before.queue = (task, records) :: queue) (untracked : task ∉ before.statuses) :
      Transition config before (.dequeue worker startedAt)
        { before with toPool := { before.toPool with queue }.setWorker worker .ended }
  | finished (worker : Nat) (outcome : Outcome Result String) (finishedAt : DateTime) (task : TaskId)
      (state : Worker) (next : Pool Result) (continues : Pool.Continues before.toPool next worker task state) :
      Transition config before (.finish worker outcome finishedAt)
        { before with toPool := next, cancelling := reached before.cancelling worker }
  | notified (worker : Nat) (outcome : Outcome Unit String) (finishedAt : DateTime) (task : TaskId)
      (state : Worker) (next : Pool Result) (continues : Pool.Continues before.toPool next worker task state) :
      Transition config before (.notified worker outcome finishedAt)
        { before with toPool := next, cancelling := reached before.cancelling worker }
  | quit (worker : Nat) (waits : before.workers[worker]? = some .waiting) :
      Transition config before (.quit worker)
        { before with toPool := before.setWorker worker .ended, cancelling := reached before.cancelling worker }
  | swallowed (worker : Nat) :
      Transition config before (.swallow worker) { before with cancelling := reached before.cancelling worker }
  | stopCalled : Transition config before .stop before.stop
  | stopReturned (call : Nat) : Transition config before (.stopped call)
      { before with stopping := before.stopping.eraseIdx call, current := [] }

theorem transition_of_step {label : Label Result}
    (stepped : (machine Result config).step before label = some after) : Transition config before label after := by
  cases label with
  | start =>
    cases stepped
    by_cases running : before.running = true
    · have same : before.start config = before := if_pos running
      rw [same]
      exact .restarted running
    · exact .started (by simpa using running)
  | submit task records queuedAt =>
    simp only [machine, step, Option.ite_none_right_eq_some, Option.some.injEq] at stepped
    obtain ⟨fresh, rfl⟩ := stepped
    rcases submitBatchIngest_cases config before task records queuedAt with
      ⟨error, answer, -⟩ | ⟨status, answer, running, room⟩
    · have said := congrArg Prod.fst answer
      rw [answer]
      exact .rejected task records queuedAt error said
    · have said := congrArg Prod.fst answer
      rw [answer]
      exact .submitted task records queuedAt status said (Option.isNone_iff_eq_none.mp fresh) room
  | dequeue worker startedAt =>
    simp only [machine, step, Option.ite_none_left_eq_some, Option.map_eq_some_iff] at stepped
    obtain ⟨-, next, taken, rfl⟩ := stepped
    unfold dequeue at taken
    split at taken
    next task records queue waits head =>
      simp only at taken
      split at taken
      next tracked => cases taken; exact .taken worker startedAt task records queue waits head tracked
      next untracked => cases taken; exact .forgotten worker startedAt task records queue waits head untracked
    next => cases taken
  | finish worker outcome finishedAt =>
    obtain ⟨next, finished, rfl⟩ := Option.map_eq_some_iff.mp stepped
    obtain ⟨task, state, continues, -⟩ := Pool.continues_of_finish finished
    exact .finished worker outcome finishedAt task state next continues
  | notified worker outcome finishedAt =>
    obtain ⟨next, finished, rfl⟩ := Option.map_eq_some_iff.mp stepped
    obtain ⟨task, state, continues, -⟩ := Pool.continues_of_notified finished
    exact .notified worker outcome finishedAt task state next continues
  | quit worker =>
    simp only [machine, step, Option.ite_none_right_eq_some, Option.map_eq_some_iff, Pool.quit] at stepped
    obtain ⟨-, next, ended, rfl⟩ := stepped
    split at ended
    next waits => cases ended; exact .quit worker waits
    next => cases ended
  | swallow worker =>
    simp only [machine, step, Option.ite_none_right_eq_some, Option.some.injEq] at stepped
    obtain ⟨-, rfl⟩ := stepped
    exact .swallowed worker
  | stop => cases stepped; exact .stopCalled
  | stopped call =>
    simp only [machine, step] at stepped
    split at stepped
    next =>
      rw [Option.ite_none_right_eq_some, Option.some.injEq] at stepped
      obtain ⟨-, rfl⟩ := stepped
      exact .stopReturned call
    next => cases stepped

@[simp] theorem stop_tasks (pool : BackgroundWorkerPool Result) : pool.stop.tasks = pool.tasks := by
  unfold stop
  split <;> rfl

@[simp] theorem stop_workers (pool : BackgroundWorkerPool Result) : pool.stop.workers = pool.workers := by
  unfold stop
  split <;> rfl

@[simp] theorem stop_queue (pool : BackgroundWorkerPool Result) : pool.stop.queue = pool.queue := by
  unfold stop
  split <;> rfl

theorem accounted_step {label : Label Result} (accounted : before.toPool.Accounted)
    (stepped : (machine Result config).step before label = some after) : after.toPool.Accounted := by
  cases transition_of_step stepped with
  | restarted | rejected | swallowed | stopReturned => exact accounted
  | started stopped =>
    have same : before.start config = _ := if_neg (by rw [stopped]; exact Bool.false_ne_true)
    rw [same]
    exact accounted.grown config.workerCount rfl rfl rfl
  | stopCalled =>
    exact accounted.grown 0 (stop_tasks before) (stop_queue before)
      (by rw [stop_workers, List.replicate_zero, List.append_nil])
  | submitted task records queuedAt _ _ fresh =>
    exact accounted.submitted fresh rfl rfl rfl (List.map_append ..) rfl
  | taken worker startedAt task records queue waits head tracked =>
    have split : before.waiting = task :: queue.map Prod.fst := by rw [Pool.waiting, head, List.map_cons]
    obtain ⟨status, found, queued, unfinished⟩ :=
      accounted.queued task (by rw [split]; exact List.mem_cons_self)
    have distinct := accounted.distinct
    rw [split, List.nodup_cons] at distinct
    refine accounted.moved (List.getElem?_eq_some_iff.mp waits).1 ?_ ?_
      (congrArg (Function.update before.tasks task) (congrArg (Option.map _) found)) rfl
      (.processing records rfl unfinished) (by rw [split]; exact List.sublist_cons_self _ _) distinct.1
    · intro other held
      obtain ⟨state, present, holds⟩ := Pool.heldBy_iff.mp held
      cases waits.symm.trans present
      cases holds
    · intro rival held
      exact absurd held (accounted.not_held (by rw [split]; exact List.mem_cons_self))
  | forgotten worker _ task records queue waits head =>
    refine accounted.dropped rfl ?_ waits rfl
    change (queue.map Prod.fst).Sublist (before.queue.map Prod.fst)
    rw [head, List.map_cons]
    exact List.sublist_cons_self _ _
  | finished worker _ _ task state next continues => exact accounted.continues continues
  | notified worker _ _ task state next continues => exact accounted.continues continues
  | quit worker waits => exact accounted.dropped rfl (List.Sublist.refl _) waits rfl

end BackgroundWorkerPool

end DataPipeline.Ingestor
