import DataPipeline.Ingestor.Crud
import DataPipeline.Ingestor.DefaultProcessor
import DataPipeline.Ingestor.WorkerPool

/-! The worker pool with its default processor over the database.

A batch is one statement and its commit. The database may apply the commit of a
client that has lost its connection or been cancelled, also later, but none
twice. Records of other requests are inserted in between.
-/

set_option autoImplicit false

namespace DataPipeline.Ingestor.BatchStorage

open Execution Calendar

structure World where
  inner : DefaultPool.World
  store : Store
  /-- What has been inserted, in order: the batch of a task, or a record of another request. -/
  log : List (Option TaskId × List Record)

def World.initial (config : PoolConfig) (ttlSeconds clock : ℚ) (store : Store) : World :=
  ⟨.initial config ttlSeconds clock, store, []⟩

def World.Wrote (world : World) (task : TaskId) : Prop := some task ∈ world.log.map Prod.fst

instance (world : World) (task : TaskId) : Decidable (world.Wrote task) := inferInstanceAs (Decidable (_ ∈ _))

def World.requests (world : World) (task : TaskId) : Option (List RecordRequest) :=
  (world.inner.jobs.calls task).entry.bind fun entry => entry.job.batchRequests

def World.Stored (world : World) (task : TaskId) : Prop := world.requests task = some [] ∨ world.Wrote task

instance (world : World) (task : TaskId) : Decidable (world.Stored task) := inferInstanceAs (Decidable (_ ∨ _))

inductive Label where
  | pool (label : DefaultPool.Label)
  | commit (task : TaskId) (given : List Fresh)
  | create (request : RecordRequest) (fresh : Fresh)

def step (config : PoolConfig) (world : World) : Label → Option World
  | .pool label =>
    match label with
    | .write worker database =>
      match world.inner.pool.workers[worker]? with
      | some (.processing task _) =>
        -- An insert returns only when it is committed.
        if database = .returned () ∧ ¬ world.Stored task then none
        else (DefaultPool.step config world.inner (.write worker database)).map ({ world with inner := · })
      | _ => none
    | other => (DefaultPool.step config world.inner other).map ({ world with inner := · })
  | .commit task given =>
    (world.inner.jobs.calls task).claimed.bind fun entry =>
      entry.job.batchRequests.bind fun requests =>
        if requests = [] ∨ world.Wrote task ∨ given.length ≠ requests.length then none
        else
          (createRecordsBatch world.store (requests.zip given)).map fun created =>
            { world with store := created.1, log := world.log ++ [(some task, created.2)] }
  | .create request fresh =>
    (createRecord world.store request fresh).map fun created =>
      { world with store := created.1, log := world.log ++ [(none, [created.2])] }

def machine (config : PoolConfig) : Machine World Label := ⟨step config⟩

def batch (requests : List RecordRequest) (given : List Fresh) : List Record :=
  (requests.zip given).map fun row => Record.ofRequest row.1 row.2

def World.recordsOf (world : World) (task : TaskId) : List Record :=
  (world.log.filter fun entry => entry.1 = some task).flatMap Prod.snd

/-! ## Calls -/

section

variable {before after : Jobs.World}

/-- A call arrives, or its insert ends; otherwise it stays as it is. -/
theorem progress_step {label : Jobs.Label} (stepped : Jobs.machine.step before label = some after) (call : Nat) :
    after.calls call = before.calls call ∨
      (∃ entry, label = .arrive call entry ∧ before.calls call = .idle ∧
        (after.calls call = .suppressed entry ∨ after.calls call = .inserting entry)) ∨
      ∃ entry database, label = .settle call database ∧ before.calls call = .inserting entry ∧
        after.calls call = .ended entry (entry.job.insert database) := by
  cases label with
  | arrive other entry =>
    obtain ⟨idle, -, -, ⟨-, -, -, -, -, calls⟩ | ⟨-, -, -, -, calls⟩⟩ := Jobs.arrive_step stepped
    all_goals
      rw [calls, Function.update_apply]
      split
      next own =>
        subst own
        exact .inr (.inl ⟨entry, rfl, idle, by simp⟩)
      next => exact .inl rfl
  | settle other database =>
    obtain ⟨entry, inserting, -, -, calls⟩ := Jobs.settle_step stepped
    rw [calls, Function.update_apply]
    split
    next own =>
      subst own
      exact .inr (.inr ⟨entry, database, rfl, inserting, rfl⟩)
    next => exact .inl rfl

theorem known_step {Field : Type} {field : Progress → Option Field} {value : Field}
    (idle : field .idle = none)
    (ends : ∀ entry database, field (.inserting entry) = some value →
      field (.ended entry (entry.job.insert database)) = some value)
    {label : Jobs.Label} (stepped : Jobs.machine.step before label = some after) {call : Nat}
    (known : field (before.calls call) = some value) : field (after.calls call) = some value := by
  rcases progress_step stepped call with same | ⟨_, _, fresh, _⟩ | ⟨entry, database, _, inserting, ended⟩
  · rw [same, known]
  · rw [fresh, idle] at known
    cases known
  · rw [inserting] at known
    rw [ended]
    exact ends entry database known

end

section

variable {config : PoolConfig} {before after : DefaultPool.World} {label : DefaultPool.Label} {task : TaskId}

theorem calls_kept {Field : Type} {field : Progress → Option Field} {value : Field}
    (stepped : (DefaultPool.machine config).step before label = some after) (idle : field .idle = none)
    (ends : ∀ entry database, field (.inserting entry) = some value →
      field (.ended entry (entry.job.insert database)) = some value)
    (known : field (before.jobs.calls task) = some value) : field (after.jobs.calls task) = some value := by
  rcases DefaultPool.jobs_step stepped with same | ⟨_, _, _, _, settled⟩ | ⟨_, _, _, _, _, _, _, _, _, arrived⟩
  · rw [same, known]
  · exact known_step idle ends settled known
  · exact known_step idle ends arrived known

theorem claimed_kept (stepped : (DefaultPool.machine config).step before label = some after) {entry : Entry}
    (known : (before.jobs.calls task).claimed = some entry) : (after.jobs.calls task).claimed = some entry := by
  apply calls_kept stepped (by rfl) ?_ known
  intro old database claimed
  exact claimed

theorem entry_kept (stepped : (DefaultPool.machine config).step before label = some after) {entry : Entry}
    (known : (before.jobs.calls task).entry = some entry) : (after.jobs.calls task).entry = some entry := by
  apply calls_kept stepped (by rfl) ?_ known
  intro old database arrived
  exact arrived

theorem answer_kept (stepped : (DefaultPool.machine config).step before label = some after) {answer : Answer}
    (known : (before.jobs.calls task).answer = some answer) : (after.jobs.calls task).answer = some answer := by
  apply calls_kept stepped (by rfl) ?_ known
  intro old database answered
  cases answered

end

/-! ## Statuses -/

section

variable {Result : Type} {config : PoolConfig} {before after pool : Pool Result} {label : Pool.Label Result}
  {task : TaskId}

theorem known_of_step (stepped : (Pool.machine Result config).step before label = some after)
    (known : before.tasks task ≠ none) : after.tasks task ≠ none := by
  cases Pool.transition_of_step stepped with
  | started => simpa using known
  | forgotten | stopped | quit => exact known
  | submitted other =>
    dsimp only
    rw [Function.update_apply]
    split
    · exact Option.some_ne_none _
    · exact known
  | taken | succeeded | cancelled | failed | failedQuietly | notified => exact Pool.known_setStatus _ _ _ known

def HasStarted (pool : Pool Result) (task : TaskId) : Prop :=
  ∃ status, pool.tasks task = some status ∧ status.status ≠ .queued

theorem hasStarted_of_step (stepped : (Pool.machine Result config).step before label = some after)
    (started : HasStarted before task) : HasStarted after task := by
  obtain ⟨old, found, running⟩ := started
  have known : before.tasks task ≠ none := by
    rw [found]
    exact Option.some_ne_none old
  obtain ⟨status, present⟩ := Option.ne_none_iff_exists'.mp (known_of_step stepped known)
  refine ⟨status, present, ?_⟩
  rcases Pool.step_status stepped present with same | change
  · rw [found] at same
    cases same
    exact running
  · rw [found] at change
    cases change with
    | started | succeeded | cancelled | failed | failedQuietly => simp
    | notified => exact running

theorem hasStarted_of_dequeue {worker : Nat} {startedAt : DateTime} {records : List RecordRequest}
    (remembers : Pool.Remembers config before)
    (stepped : (Pool.machine Result config).step before (.dequeue worker startedAt) = some after)
    (processing : after.workers[worker]? = some (.processing task records)) : HasStarted after task := by
  obtain ⟨accepted, fifo⟩ := remembers
  cases Pool.transition_of_step stepped with
  | taken _ _ other items queue _ waits head =>
    have inside : worker < before.workers.length := (List.getElem?_eq_some_iff.mp waits).1
    simp only [Pool.setWorker, Pool.setStatus, List.getElem?_set_self inside, Option.some.injEq,
      Worker.processing.injEq] at processing
    obtain ⟨rfl, rfl⟩ := processing
    have member : other ∈ before.queue.map Prod.fst := by
      rw [head]
      exact List.mem_cons_self
    obtain ⟨old, found⟩ := Option.ne_none_iff_exists'.mp (fifo.known other (fifo.queue.subset member))
    refine ⟨{ old with status := .running, startedAt := some startedAt }, ?_, by simp⟩
    simp [Pool.setWorker, Pool.setStatus, found]
  | forgotten _ _ _ _ _ _ waits =>
    have inside : worker < before.workers.length := (List.getElem?_eq_some_iff.mp waits).1
    simp only [Pool.setWorker, List.getElem?_set_self inside, Option.some.injEq, reduceCtorEq] at processing

theorem result_of_setStatus {change : BackgroundTaskStatus Result → BackgroundTaskStatus Result} {other : TaskId}
    {status : BackgroundTaskStatus Result} {result : Result}
    (found : (pool.setStatus other change).tasks task = some status) (returned : status.result = some result)
    (same : ∀ old, (change old).result = old.result) :
    ∃ old, pool.tasks task = some old ∧ old.result = some result := by
  simp only [Pool.setStatus, Function.update_apply] at found
  split at found
  next own =>
    obtain ⟨old, present, rfl⟩ := Option.map_eq_some_iff.mp found
    rw [same] at returned
    exact ⟨old, own ▸ present, returned⟩
  next => exact ⟨status, found, returned⟩

theorem result_of_step (stepped : (Pool.machine Result config).step before label = some after)
    {status : BackgroundTaskStatus Result} {result : Result} (found : after.tasks task = some status)
    (returned : status.result = some result) :
    (∃ old, before.tasks task = some old ∧ old.result = some result) ∨
      ∃ worker records finishedAt, label = .finish worker (.returned result) finishedAt ∧
        before.workers[worker]? = some (.processing task records) := by
  cases Pool.transition_of_step stepped with
  | started => exact .inl ⟨status, by simpa using found, returned⟩
  | forgotten | stopped | quit => exact .inl ⟨status, found, returned⟩
  | submitted other =>
    dsimp only at found
    rw [Function.update_apply] at found
    split at found
    · cases found
      cases returned
    · exact .inl ⟨status, found, returned⟩
  | succeeded worker other records value finishedAt busy =>
    by_cases own : task = other
    · subst own
      simp only [Pool.setWorker, Pool.setStatus, Function.update_self, Option.map_eq_some_iff] at found
      obtain ⟨old, -, rfl⟩ := found
      cases returned
      exact .inr ⟨worker, records, finishedAt, rfl, busy⟩
    · simp only [Pool.setWorker, Pool.setStatus, Function.update_of_ne own] at found
      exact .inl ⟨status, found, returned⟩
  | taken | cancelled | failed | failedQuietly | notified =>
    exact .inl (result_of_setStatus found returned fun _ => rfl)

end

/-! ## The pool and its jobs -/

section

variable {config : PoolConfig} {before after : DefaultPool.World} {label : DefaultPool.Label}

theorem processorOutcome_returned {answer result : Answer}
    (returned : DefaultPool.processorOutcome answer = .returned result) : result = answer := by
  cases answer with
  | record | skipped | summary => cases returned; rfl
  | raised | cancelled => cases returned

theorem dequeue_cases {worker : Nat} {startedAt : DateTime} {today : Date} {checked marked : ℚ}
    (stepped : (DefaultPool.machine config).step before (.dequeue worker startedAt today checked marked) = some after) :
    (Pool.machine Answer config).step before.pool (.dequeue worker startedAt) = some after.pool ∧
      (after.jobs = before.jobs ∨ ∃ task records, after.pool.workers[worker]? = some (.processing task records) ∧
        Jobs.machine.step before.jobs (.arrive task (DefaultPool.entryOf records today checked marked)) =
          some after.jobs) := by
  simp only [DefaultPool.machine, DefaultPool.step, Option.bind_eq_bind, Option.bind_eq_some_iff] at stepped
  obtain ⟨pool, taken, stepped⟩ := stepped
  split at stepped
  next task records working =>
    obtain ⟨jobs, arrived, stepped⟩ := Option.bind_eq_some_iff.mp stepped
    cases stepped
    exact ⟨taken, .inr ⟨task, records, working, arrived⟩⟩
  next =>
    cases stepped
    exact ⟨taken, .inl rfl⟩

theorem result_cases (stepped : (DefaultPool.machine config).step before label = some after) {task : TaskId}
    {status : BackgroundTaskStatus Answer} {answer : Answer} (found : after.pool.tasks task = some status)
    (returned : status.result = some answer) :
    (∃ old, before.pool.tasks task = some old ∧ old.result = some answer) ∨
      (before.jobs.calls task).answer = some answer := by
  cases label with
  | dequeue worker startedAt today checked marked =>
    rcases result_of_step (dequeue_cases stepped).1 found returned with old | ⟨_, _, _, same, -⟩
    · exact .inl old
    · cases same
  | write worker database =>
    simp only [DefaultPool.machine, DefaultPool.step] at stepped
    split at stepped
    next =>
      obtain ⟨jobs, -, rfl⟩ := Option.map_eq_some_iff.mp stepped
      exact .inl ⟨status, found, returned⟩
    next => cases stepped
  | finish worker interrupted finishedAt =>
    simp only [DefaultPool.machine, DefaultPool.step] at stepped
    split at stepped
    next other records processing =>
      simp only [Option.bind_eq_bind, Option.bind_eq_some_iff] at stepped
      obtain ⟨given, answered, pool, finished, stepped⟩ := stepped
      cases stepped
      rcases result_of_step finished found returned with old | ⟨_, _, _, same, busy⟩
      · exact .inl old
      · cases interrupted with
        | true => cases same
        | false =>
          simp only [Bool.false_eq_true, ↓reduceIte, Pool.Label.finish.injEq] at same
          obtain ⟨rfl, outcome, -⟩ := same
          rw [processing] at busy
          cases busy
          rw [processorOutcome_returned outcome]
          exact .inr answered
    next => cases stepped
  | start | submit | notified | stop | quit =>
    simp only [DefaultPool.machine, DefaultPool.step, Option.map_eq_some_iff] at stepped
    obtain ⟨pool, moved, rfl⟩ := stepped
    rcases result_of_step moved found returned with old | ⟨_, _, _, same, -⟩
    · exact .inl old
    · cases same

/-- Jobs are called for tasks that have started, and a result is an answer of the job. -/
structure Steady (config : PoolConfig) (world : DefaultPool.World) : Prop where
  remembers : Pool.Remembers config world.pool
  started : ∀ task, world.jobs.calls task ≠ .idle → HasStarted world.pool task
  answered : ∀ task status answer, world.pool.tasks task = some status → status.result = some answer →
    (world.jobs.calls task).answer = some answer

theorem steady_initial (config : PoolConfig) (ttlSeconds clock : ℚ) : Steady config (.initial config ttlSeconds clock) where
  remembers := by
    have started : (Pool.machine Answer config).step .empty .start = some (Pool.empty.start config) := by
      simp [Pool.machine, Pool.step, Pool.empty]
    exact Pool.remembers_step Pool.remembers_initial started
  started := by
    intro task called
    exact absurd rfl called
  answered := by
    intro task status answer found
    simp [DefaultPool.World.initial, Pool.start, Pool.empty] at found

theorem Steady.step (steady : Steady config before)
    (stepped : (DefaultPool.machine config).step before label = some after) : Steady config after where
  remembers := by
    rcases DefaultPool.pool_step stepped with same | ⟨move, moved, -⟩
    · rw [same]
      exact steady.remembers
    · exact Pool.remembers_step steady.remembers moved
  started := by
    intro task called
    have kept : HasStarted before.pool task → HasStarted after.pool task := by
      rcases DefaultPool.pool_step stepped with same | ⟨move, moved, -⟩
      · rw [same]
        exact id
      · exact hasStarted_of_step moved
    have arrives : before.jobs.calls task = .idle → HasStarted after.pool task := by
      intro idle
      cases label with
      | dequeue worker startedAt today checked marked =>
        obtain ⟨moved, same | ⟨other, records, processing, arrived⟩⟩ := dequeue_cases stepped
        · rw [same] at called
          exact absurd idle called
        · rcases progress_step arrived task with same | ⟨_, same, -⟩ | ⟨_, _, same, -⟩
          · rw [same] at called
            exact absurd idle called
          · cases same
            exact hasStarted_of_dequeue steady.remembers moved processing
          · cases same
      | start | write | submit | finish | notified | stop | quit =>
        -- No call comes in here.
        rcases DefaultPool.jobs_step stepped with same | ⟨_, _, _, -, settled⟩ | ⟨_, _, _, _, _, _, _, same, -⟩
        · rw [same] at called
          exact absurd idle called
        · rcases progress_step settled task with same | ⟨_, same, -⟩ | ⟨_, _, _, inserting, -⟩
          · rw [same] at called
            exact absurd idle called
          · cases same
          · rw [idle] at inserting
            cases inserting
        · cases same
    by_cases idle : before.jobs.calls task = .idle
    · exact arrives idle
    · exact kept (steady.started task idle)
  answered := by
    intro task status answer found returned
    apply answer_kept stepped
    rcases result_cases stepped found returned with ⟨old, present, same⟩ | answered
    · exact steady.answered task old answer present same
    · exact answered

end

/-! ## The store -/

section

variable {config : PoolConfig} {start : Store} {before after : World} {task : TaskId}

theorem insertAll_rows {store next : Store} {records : List Record}
    (inserted : records.foldlM Table.insert? store = some next) : next.rows = store.rows ++ records := by
  induction records generalizing store with
  | nil =>
    cases inserted
    rw [List.append_nil]
  | cons record rest ih =>
    rw [List.foldlM_cons, Option.bind_eq_bind, Option.bind_eq_some_iff] at inserted
    obtain ⟨middle, first, inserted⟩ := inserted
    rw [ih inserted, Table.insert?_rows first, List.append_assoc, List.singleton_append]

/-- A step of the pool leaves the store alone; an insert that it reports as
returned has nothing left to store. -/
theorem pool_step {label : DefaultPool.Label} (stepped : (machine config).step before (.pool label) = some after) :
    (DefaultPool.machine config).step before.inner label = some after.inner ∧ after.store = before.store ∧
      after.log = before.log ∧
      ∀ worker database, label = .write worker database → ∃ task,
        Jobs.machine.step before.inner.jobs (.settle task database) = some after.inner.jobs ∧
          (database = .returned () → before.Stored task) := by
  cases label with
  | write worker database =>
    simp only [machine, step] at stepped
    split at stepped
    next task records processing =>
      split at stepped
      next => cases stepped
      next allowed =>
        obtain ⟨inner, moved, rfl⟩ := Option.map_eq_some_iff.mp stepped
        have wrote := moved
        simp only [DefaultPool.step, processing] at wrote
        obtain ⟨jobs, settled, same⟩ := Option.map_eq_some_iff.mp wrote
        cases same
        refine ⟨moved, rfl, rfl, ?_⟩
        intro slot outcome same
        cases same
        refine ⟨task, settled, fun returned => ?_⟩
        simpa [returned] using allowed
    next => cases stepped
  | start | submit | dequeue | finish | notified | stop | quit =>
    simp only [machine, step] at stepped
    obtain ⟨inner, moved, rfl⟩ := Option.map_eq_some_iff.mp stepped
    exact ⟨moved, rfl, rfl, fun _ _ same => by cases same⟩

theorem insert_returned {job : Job} {database : Outcome Unit String} (returned : job.insert database = .returned ()) :
    job.batchRequests = some [] ∨ database = .returned () := by
  cases job with
  | single => exact .inr returned
  | batch requests =>
    cases requests with
    | nil => exact .inl rfl
    | cons => exact .inr returned

theorem stored_kept (log : before.log ⊆ after.log)
    (entries : ∀ entry, (before.inner.jobs.calls task).entry = some entry →
      (after.inner.jobs.calls task).entry = some entry) (stored : before.Stored task) : after.Stored task := by
  rcases stored with empty | wrote
  · obtain ⟨entry, arrived, batched⟩ := Option.bind_eq_some_iff.mp empty
    exact .inl (Option.bind_eq_some_iff.mpr ⟨entry, entries entry arrived, batched⟩)
  · exact .inr (List.map_subset Prod.fst log wrote)

theorem commit_step {given : List Fresh} (stepped : (machine config).step before (.commit task given) = some after) :
    ∃ entry requests, (before.inner.jobs.calls task).claimed = some entry ∧ entry.job.batchRequests = some requests ∧
      requests ≠ [] ∧ ¬ before.Wrote task ∧ given.length = requests.length ∧ after.inner = before.inner ∧
      after.log = before.log ++ [(some task, batch requests given)] ∧
      after.store.rows = before.store.rows ++ batch requests given := by
  simp only [machine, step, Option.bind_eq_some_iff, Option.ite_none_left_eq_some, not_or, not_not] at stepped
  obtain ⟨entry, claimed, requests, batched, ⟨some, fresh, whole⟩, stepped⟩ := stepped
  obtain ⟨created, inserted, rfl⟩ := Option.map_eq_some_iff.mp stepped
  obtain ⟨records, rows⟩ := createRecordsBatch_eq_some inserted
  refine ⟨entry, requests, claimed, batched, some, fresh, whole, rfl, ?_, ?_⟩
  · rw [records]
    rfl
  · rw [insertAll_rows rows, records]
    rfl

theorem create_step {request : RecordRequest} {fresh : Fresh}
    (stepped : (machine config).step before (.create request fresh) = some after) :
    after.inner = before.inner ∧ ∃ record, after.log = before.log ++ [(none, [record])] ∧
      after.store.rows = before.store.rows ++ [record] := by
  obtain ⟨created, inserted, rfl⟩ := Option.map_eq_some_iff.mp stepped
  obtain ⟨-, row⟩ := createRecord_eq_some inserted
  exact ⟨rfl, created.2, rfl, Table.insert?_rows row⟩

/-- The rows are those of the log, which has a batch once at most and whole. -/
structure Accounted (start : Store) (world : World) : Prop where
  rows : world.store.rows = start.rows ++ world.log.flatMap Prod.snd
  once : (world.log.filterMap Prod.fst).Nodup
  whole : ∀ task records, (some task, records) ∈ world.log → ∃ entry requests given,
    (world.inner.jobs.calls task).claimed = some entry ∧ entry.job.batchRequests = some requests ∧ requests ≠ [] ∧
      given.length = requests.length ∧ records = batch requests given
  returned : ∀ task entry, world.inner.jobs.calls task = .ended entry (.returned ()) → world.Stored task

theorem accounted_initial (config : PoolConfig) (ttlSeconds clock : ℚ) (start : Store) :
    Accounted start (.initial config ttlSeconds clock start) where
  rows := (List.append_nil _).symm
  once := .nil
  whole := by
    intro task records member
    cases member
  returned := by
    intro task entry ended
    cases ended

theorem Accounted.pool {label : DefaultPool.Label} (accounted : Accounted start before)
    (stepped : (machine config).step before (.pool label) = some after) : Accounted start after := by
  obtain ⟨moved, store, log, writes⟩ := pool_step stepped
  refine ⟨?_, ?_, ?_, ?_⟩
  · rw [store, log]
    exact accounted.rows
  · rw [log]
    exact accounted.once
  · intro task records member
    rw [log] at member
    obtain ⟨entry, requests, given, claimed, rest⟩ := accounted.whole task records member
    exact ⟨entry, requests, given, claimed_kept moved claimed, rest⟩
  · intro task entry ended
    apply stored_kept (by rw [log]; exact List.Subset.refl _) fun entry => entry_kept moved
    rcases DefaultPool.jobs_step moved with same | ⟨worker, database, _, write, -⟩ |
      ⟨_, _, _, _, _, _, _, _, _, arrived⟩
    · rw [same] at ended
      exact accounted.returned task entry ended
    · obtain ⟨other, settled, stored⟩ := writes worker database write
      rcases progress_step settled task with same | ⟨_, same, -⟩ | ⟨old, _, same, inserting, now⟩
      · rw [same] at ended
        exact accounted.returned task entry ended
      · cases same
      · cases same
        rw [now, Progress.ended.injEq] at ended
        rcases insert_returned ended.2 with empty | returned
        · exact .inl (by rw [World.requests, inserting]; exact empty)
        · exact stored returned
    · rcases progress_step arrived task with same | ⟨_, _, _, now⟩ | ⟨_, _, same, -⟩
      · rw [same] at ended
        exact accounted.returned task entry ended
      · rw [ended] at now
        rcases now with now | now <;> cases now
      · cases same

theorem Accounted.step {label : Label} (accounted : Accounted start before)
    (stepped : (machine config).step before label = some after) : Accounted start after := by
  cases label with
  | pool label => exact accounted.pool stepped
  | commit task given =>
    obtain ⟨entry, requests, claimed, batched, some, fresh, length, inner, log, rows⟩ := commit_step stepped
    have new : task ∉ before.log.filterMap Prod.fst := by
      intro member
      obtain ⟨entry, logged, same⟩ := List.mem_filterMap.mp member
      exact fresh (List.mem_map.mpr ⟨entry, logged, same⟩)
    refine ⟨?_, ?_, ?_, ?_⟩
    · rw [rows, log, accounted.rows]
      simp
    · rw [log, List.filterMap_append]
      exact List.nodup_append.mpr ⟨accounted.once, List.nodup_singleton task, by
        intro old member other last same
        rw [List.mem_singleton.mp last] at same
        exact new (same ▸ member)⟩
    · intro other records member
      rw [inner]
      rw [log] at member
      rcases List.mem_append.mp member with old | last
      · exact accounted.whole other records old
      · cases List.mem_singleton.mp last
        exact ⟨entry, requests, given, claimed, batched, some, length, rfl⟩
    · intro other entry ended
      rw [inner] at ended
      apply stored_kept ?_ (fun entry arrived => ?_) (accounted.returned other entry ended)
      · rw [log]
        exact List.subset_append_left _ _
      · rw [inner]
        exact arrived
  | create request fresh =>
    obtain ⟨inner, record, log, rows⟩ := create_step stepped
    refine ⟨?_, ?_, ?_, ?_⟩
    · rw [rows, log, accounted.rows]
      simp
    · rw [log, List.filterMap_append]
      simpa using accounted.once
    · intro other records member
      rw [inner]
      rw [log] at member
      rcases List.mem_append.mp member with old | last
      · exact accounted.whole other records old
      · cases List.mem_singleton.mp last
    · intro other entry ended
      rw [inner] at ended
      apply stored_kept ?_ (fun entry arrived => ?_) (accounted.returned other entry ended)
      · rw [log]
        exact List.subset_append_left _ _
      · rw [inner]
        exact arrived

end

/-! ## Runs -/

def Label.toPool : Label → List DefaultPool.Label
  | .pool label => [label]
  | .commit _ _ | .create _ _ => []

section

variable {config : PoolConfig} {ttlSeconds clock : ℚ} {start : Store} {labels : List Label} {final : World}
  {task : TaskId}

theorem pool_run (ran : (machine config).run (.initial config ttlSeconds clock start) labels = some final) :
    (DefaultPool.machine config).run (.initial config ttlSeconds clock) (labels.flatMap Label.toPool) =
      some final.inner := by
  apply Machine.run_project World.inner Label.toPool ?_ ran
  intro before label after stepped
  cases label with
  | pool label => exact Machine.run_cons.mpr ⟨after.inner, (pool_step stepped).1, rfl⟩
  | commit task given =>
    obtain ⟨_, _, _, _, _, _, _, inner, _⟩ := commit_step stepped
    exact congrArg some inner.symm
  | create request fresh => exact congrArg some (create_step stepped).1.symm

theorem accounted_run (ran : (machine config).run (.initial config ttlSeconds clock start) labels = some final) :
    Accounted start final :=
  Machine.invariant_of_step (Accounted start) (accounted_initial config ttlSeconds clock start)
    (fun _ _ _ accounted => accounted.step) ran

theorem steady_run (ran : (machine config).run (.initial config ttlSeconds clock start) labels = some final) :
    Steady config final.inner :=
  Machine.invariant_of_step (Steady config) (steady_initial config ttlSeconds clock)
    (fun _ _ _ steady => steady.step) (pool_run ran)

theorem submitted_run (ran : (machine config).run (.initial config ttlSeconds clock start) labels = some final)
    {entry : Entry} (arrived : (final.inner.jobs.calls task).entry = some entry) :
    ∃ requests queuedAt keyPrefix, .pool (.submit task requests queuedAt) ∈ labels ∧
      entry.job = .batch requests keyPrefix := by
  have submits : ∀ task requests queuedAt, .submit task requests queuedAt ∈ labels.flatMap Label.toPool →
      ∃ queuedAt, Label.pool (.submit task requests queuedAt) ∈ labels := by
    intro task requests queuedAt member
    obtain ⟨label, listed, same⟩ := List.mem_flatMap.mp member
    cases label with
    | pool label =>
      cases List.mem_singleton.mp same
      exact ⟨queuedAt, listed⟩
    | commit | create => cases same
  obtain ⟨requests, today, checked, marked, ⟨queuedAt, listed⟩, rfl⟩ :=
    DefaultPool.submitted_run (fun task requests => ∃ queuedAt, Label.pool (.submit task requests queuedAt) ∈ labels)
      submits (pool_run ran) arrived
  exact ⟨requests, queuedAt, _, listed, rfl⟩

/-! ## What is stored -/

theorem recordsOf_of_not_wrote {world : World} (absent : ¬ world.Wrote task) : world.recordsOf task = [] := by
  have none : world.log.filter (fun entry => entry.1 = some task) = [] := by
    apply List.filter_eq_nil_iff.mpr
    intro entry member same
    exact absent (List.mem_map.mpr ⟨entry, member, of_decide_eq_true same⟩)
  rw [World.recordsOf, none, List.flatMap_nil]

theorem filter_once {log : List (Option TaskId × List Record)} {records : List Record}
    (once : (log.filterMap Prod.fst).Nodup) (member : (some task, records) ∈ log) :
    log.filter (fun entry => entry.1 = some task) = [(some task, records)] := by
  induction log with
  | nil => cases member
  | cons entry log ih =>
    have absent : task ∉ log.filterMap Prod.fst → log.filter (fun entry => entry.1 = some task) = [] := by
      intro missing
      apply List.filter_eq_nil_iff.mpr
      intro other listed same
      exact missing (List.mem_filterMap.mpr ⟨other, listed, of_decide_eq_true same⟩)
    rcases List.mem_cons.mp member with rfl | later
    · have key : Prod.fst (some task, records) = some task := rfl
      rw [List.filterMap_cons_some key, List.nodup_cons] at once
      rw [List.filter_cons_of_pos (by simp), absent once.1]
    · have listed : task ∈ log.filterMap Prod.fst := List.mem_filterMap.mpr ⟨_, later, rfl⟩
      have other : entry.1 ≠ some task := by
        intro same
        rw [List.filterMap_cons_some same, List.nodup_cons] at once
        exact once.1 listed
      rw [List.filter_cons_of_neg (by simpa using other)]
      apply ih ?_ later
      cases key : entry.1 with
      | none => rwa [List.filterMap_cons_none key] at once
      | some old =>
        rw [List.filterMap_cons_some key] at once
        exact once.of_cons

theorem Accounted.recordsOf_cases (accounted : Accounted start final) (task : TaskId) :
    (¬ final.Wrote task ∧ final.recordsOf task = []) ∨ (final.Wrote task ∧ ∃ entry requests given,
      (final.inner.jobs.calls task).claimed = some entry ∧ entry.job.batchRequests = some requests ∧
        given.length = requests.length ∧ final.recordsOf task = batch requests given) := by
  by_cases wrote : final.Wrote task
  · refine .inr ⟨wrote, ?_⟩
    obtain ⟨⟨_, records⟩, member, same⟩ := List.mem_map.mp wrote
    cases same
    obtain ⟨entry, requests, given, claimed, batched, -, length, whole⟩ := accounted.whole task records member
    refine ⟨entry, requests, given, claimed, batched, length, ?_⟩
    rw [World.recordsOf, filter_once accounted.once member, List.flatMap_singleton, whole]
  · exact .inl ⟨wrote, recordsOf_of_not_wrote wrote⟩

theorem Accounted.unclaimed (accounted : Accounted start final)
    (unclaimed : (final.inner.jobs.calls task).claimed = none) : final.recordsOf task = [] := by
  rcases accounted.recordsOf_cases task with ⟨-, empty⟩ | ⟨-, entry, _, _, claimed, -⟩
  · exact empty
  · rw [unclaimed] at claimed
    cases claimed

/-- What the database holds of the tasks of a pool, by their statuses. -/
structure BatchesStored (start : Store) (labels : List Label) (world : World) : Prop where
  rows : world.store.rows = start.rows ++ world.log.flatMap Prod.snd
  once : (world.log.filterMap Prod.fst).Nodup
  whole : ∀ task, world.recordsOf task = [] ∨ ∃ requests queuedAt given,
    .pool (.submit task requests queuedAt) ∈ labels ∧ given.length = requests.length ∧
      world.recordsOf task = batch requests given
  queued : ∀ task status, world.inner.pool.tasks task = some status → status.status = .queued →
    world.recordsOf task = []
  inserted : ∀ task status inserted errors, world.inner.pool.tasks task = some status →
    status.result = some (.summary inserted errors none) → ∃ requests queuedAt given,
      .pool (.submit task requests queuedAt) ∈ labels ∧ given.length = requests.length ∧ inserted = requests.length ∧
        world.recordsOf task = batch requests given
  duplicate : ∀ task status, world.inner.pool.tasks task = some status →
    status.result = some DefaultPool.duplicateAnswer → world.recordsOf task = []

theorem Accounted.ended_returned (accounted : Accounted start final) {entry : Entry} {requests : List RecordRequest}
    (ended : final.inner.jobs.calls task = .ended entry (.returned ())) (batched : entry.job.batchRequests = some requests) :
    ∃ given, given.length = requests.length ∧ final.recordsOf task = batch requests given := by
  rcases accounted.recordsOf_cases task with ⟨absent, none⟩ |
    ⟨-, other, records, given, claimed, known, length, whole⟩
  · rcases accounted.returned task entry ended with empty | wrote
    · rw [World.requests, ended] at empty
      cases batched.symm.trans empty
      exact ⟨[], rfl, none⟩
    · exact absurd wrote absent
  · rw [ended] at claimed
    cases claimed
    cases batched.symm.trans known
    exact ⟨given, length, whole⟩

theorem submission_of_recordsOf
    (ran : (machine config).run (.initial config ttlSeconds clock start) labels = some final) (task : TaskId) :
    final.recordsOf task = [] ∨ ∃ requests queuedAt given, .pool (.submit task requests queuedAt) ∈ labels ∧
      given.length = requests.length ∧ final.recordsOf task = batch requests given := by
  rcases (accounted_run ran).recordsOf_cases task with
    ⟨-, none⟩ | ⟨-, entry, requests, given, claimed, batched, length, whole⟩
  · exact .inl none
  · obtain ⟨submission, queuedAt, keyPrefix, listed, job⟩ := submitted_run ran (Jobs.entry_of_claimed claimed)
    rw [job] at batched
    cases batched
    exact .inr ⟨requests, queuedAt, given, listed, length, whole⟩

theorem recordsOf_of_queued (ran : (machine config).run (.initial config ttlSeconds clock start) labels = some final)
    {status : BackgroundTaskStatus Answer} (found : final.inner.pool.tasks task = some status)
    (queued : status.status = .queued) : final.recordsOf task = [] := by
  apply (accounted_run ran).unclaimed
  by_cases idle : final.inner.jobs.calls task = .idle
  · rw [idle]
    rfl
  · obtain ⟨other, same, running⟩ := (steady_run ran).started task idle
    cases found.symm.trans same
    exact absurd queued running

theorem recordsOf_of_inserted (ran : (machine config).run (.initial config ttlSeconds clock start) labels = some final)
    {status : BackgroundTaskStatus Answer} {inserted errors : Nat}
    (found : final.inner.pool.tasks task = some status) (returned : status.result = some (.summary inserted errors none)) :
    ∃ requests queuedAt given, .pool (.submit task requests queuedAt) ∈ labels ∧ given.length = requests.length ∧
      inserted = requests.length ∧ final.recordsOf task = batch requests given := by
  have answered := (steady_run ran).answered task status _ found returned
  cases call : final.inner.jobs.calls task with
  | idle | inserting =>
    rw [call] at answered
    cases answered
  | suppressed entry =>
    have arrived : (final.inner.jobs.calls task).entry = some entry := by rw [call]; rfl
    obtain ⟨requests, queuedAt, keyPrefix, -, job⟩ := submitted_run ran arrived
    rw [call, Progress.answer, job] at answered
    cases answered
  | ended entry insert =>
    have arrived : (final.inner.jobs.calls task).entry = some entry := by rw [call]; rfl
    obtain ⟨requests, queuedAt, keyPrefix, listed, job⟩ := submitted_run ran arrived
    rw [call, Progress.answer, job] at answered
    cases insert with
    | returned =>
      cases answered
      obtain ⟨given, length, whole⟩ := (accounted_run ran).ended_returned call (by rw [job]; rfl)
      exact ⟨requests, queuedAt, given, listed, length, rfl, whole⟩
    | raised | cancelled => cases answered

theorem recordsOf_of_duplicate (ran : (machine config).run (.initial config ttlSeconds clock start) labels = some final)
    {status : BackgroundTaskStatus Answer} (found : final.inner.pool.tasks task = some status)
    (returned : status.result = some DefaultPool.duplicateAnswer) : final.recordsOf task = [] := by
  have accounted := accounted_run ran
  have answered := (steady_run ran).answered task status _ found returned
  cases call : final.inner.jobs.calls task with
  | idle | inserting =>
    rw [call] at answered
    cases answered
  | suppressed entry =>
    apply accounted.unclaimed
    rw [call]
    rfl
  | ended entry insert =>
    have arrived : (final.inner.jobs.calls task).entry = some entry := by rw [call]; rfl
    obtain ⟨requests, queuedAt, keyPrefix, -, job⟩ := submitted_run ran arrived
    rw [call, Progress.answer, job] at answered
    cases insert with
    | returned => simp [Job.answer, DefaultPool.duplicateAnswer] at answered
    | cancelled => cases answered
    | raised error =>
      -- Only an empty batch could have failed with no errors.
      simp only [Job.answer, DefaultPool.duplicateAnswer, Option.some.injEq, Answer.summary.injEq, true_and,
        List.length_eq_zero_iff] at answered
      rcases accounted.recordsOf_cases task with ⟨-, none⟩ | ⟨-, other, records, given, claimed, batched, -, whole⟩
      · exact none
      · rw [call] at claimed
        cases claimed
        rw [job] at batched
        cases batched
        rw [whole, answered.1]
        rfl

/-- In every run of a pool over a store, what is inserted for a task is all the
records of its submission at once, and this once at most: nothing while it is
queued or if it is answered as a duplicate, and everything if it succeeds
without an error. -/
theorem batches_stored (ran : (machine config).run (.initial config ttlSeconds clock start) labels = some final) :
    BatchesStored start labels final where
  rows := (accounted_run ran).rows
  once := (accounted_run ran).once
  whole := submission_of_recordsOf ran
  queued := fun _ _ => recordsOf_of_queued ran
  inserted := fun _ _ _ _ => recordsOf_of_inserted ran
  duplicate := fun _ _ => recordsOf_of_duplicate ran

end

open DefaultPool in
/-- The connection is lost while a batch is inserted, but the commit is applied;
the second task is then taken for a duplicate. -/
def lostThenRepeated : List Label :=
  [.pool (.submit 0 [⟨"sensor", noon, [], []⟩] noon), .pool (.submit 1 [⟨"sensor", noon, [], []⟩] noon),
    .pool (.dequeue 0 noon noon.date 0 0), .pool (.write 0 (.raised "connection lost")),
    .commit 0 [freshOne], .pool (.finish 0 false noon), .pool (.dequeue 0 noon noon.date 1 1),
    .pool (.finish 0 false noon)]

theorem lostThenRepeated_stored :
    ∃ final, (machine DefaultPool.onePool).run (.initial DefaultPool.onePool 3600 0 Table.empty) lostThenRepeated =
      some final ∧ BatchesStored Table.empty lostThenRepeated final ∧ (final.recordsOf 0).length = 1 ∧
        final.recordsOf 1 = [] := by
  have ends : ((machine DefaultPool.onePool).run (.initial DefaultPool.onePool 3600 0 Table.empty)
      lostThenRepeated).any fun final => (final.recordsOf 0).length = 1 ∧ final.recordsOf 1 = [] := by decide +kernel
  obtain ⟨final, ran, ends⟩ := (Option.any_eq_true _ _).mp ends
  exact ⟨final, ran, batches_stored ran, of_decide_eq_true ends⟩

end DataPipeline.Ingestor.BatchStorage
