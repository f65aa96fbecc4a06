import DataPipeline.Ingestor.Notifications
import DataPipeline.Ingestor.PoolLifecycle

/-! The worker pool as `lifespan` of `ingestor/main.py` builds it: each task that
fails is announced on the default channels, while the other workers go on.

The requests of a callback are one step each. A cancellation reaches a callback
only while a request is under way, and then leaves the loop over the channels.
-/

set_option autoImplicit false

namespace DataPipeline.Ingestor.TaskAlerts

open Execution Calendar Notifications

variable {Result : Type}

structure Sent where
  task : TaskId
  post : Post
  outcome : Outcome Unit String

/-- A call of `on_task_failed`, with the channels that it has still to try. -/
structure Callback where
  task : TaskId
  notification : Notification
  channels : List Channel

structure World (Result : Type) where
  pool : BackgroundWorkerPool Result
  /-- The call that a worker is in. -/
  callbacks : Nat → Option Callback
  sent : List Sent

def World.initial : World Result := ⟨.empty, fun _ => none, []⟩

inductive Label (Result : Type) where
  | pool (label : BackgroundWorkerPool.Label Result)
  | skip (worker : Nat)
  | post (worker : Nat) (outcome : Outcome Unit String) (finishedAt : DateTime)
  | done (worker : Nat) (finishedAt : DateTime)

/-- The event of `notify_background_task_failed`; `uuid` writes the id of a task. -/
def taskFailed (uuid : TaskId → String) (status : BackgroundTaskStatus Result) : Notification :=
  let error := (given status.error).getD "unknown"
  { event := "background_task_failed"
    message := "Background task failed (task_id=" ++ uuid status.taskId ++ ", batch_size=" ++
      toString status.batchSize ++ ", error=" ++ error ++ ")"
    severity := "critical"
    context := [("task_id", .text (uuid status.taskId)), ("batch_size", .int status.batchSize), ("error", .text error)] }

section

variable (isFinal : List Char → List Char → Bool) (upper : String → String) (uuid : TaskId → String)
  (settings : NotificationSettings) (config : PoolConfig)

/-- The channels of a dispatch without channels of its own. -/
def alertChannels : List Channel :=
  if settings.enabled = false then [] else selectedChannels isFinal settings none

def called (pool : BackgroundWorkerPool Result) (worker : Nat) : Option Callback :=
  match pool.workers[worker]? with
  | some (.notifying task) =>
    (pool.tasks task).map fun status => ⟨task, taskFailed uuid status, alertChannels isFinal settings⟩
  | _ => none

def step (world : World Result) : Label Result → Option (World Result)
  | .pool label =>
    match label with
    | .notified _ _ _ => none
    | .finish worker outcome finishedAt =>
      (BackgroundWorkerPool.step config world.pool (.finish worker outcome finishedAt)).map fun pool =>
        { world with
          pool
          callbacks := Function.update world.callbacks worker (called isFinal uuid settings pool worker) }
    | other => (BackgroundWorkerPool.step config world.pool other).map fun pool => { world with pool }
  -- A channel that is not configured is a `ValueError` before any await.
  | .skip worker =>
    (world.callbacks worker).bind fun callback =>
      match callback.channels with
      | [] => none
      | channel :: channels =>
        match dispatchToChannel isFinal upper settings callback.notification channel with
        | .ok _ => none
        | .error _ =>
          some { world with callbacks := Function.update world.callbacks worker (some { callback with channels }) }
  | .post worker outcome finishedAt =>
    (world.callbacks worker).bind fun callback =>
      match callback.channels with
      | [] => none
      | channel :: channels =>
        match dispatchToChannel isFinal upper settings callback.notification channel with
        | .error _ => none
        | .ok post =>
          let sent := world.sent ++ [⟨callback.task, post, outcome⟩]
          if outcome = .cancelled then
            (BackgroundWorkerPool.step config world.pool (.notified worker outcome finishedAt)).map fun pool =>
              { pool, callbacks := Function.update world.callbacks worker none, sent }
          else
            some { world with
              callbacks := Function.update world.callbacks worker (some { callback with channels })
              sent }
  | .done worker finishedAt =>
    (world.callbacks worker).bind fun callback =>
      if callback.channels = [] then
        (BackgroundWorkerPool.step config world.pool (.notified worker (.returned ()) finishedAt)).map fun pool =>
          { world with pool, callbacks := Function.update world.callbacks worker none }
      else none

def machine (Result : Type) : Machine (World Result) (Label Result) := ⟨step isFinal upper uuid settings config⟩

def alerts (status : BackgroundTaskStatus Result) : List Post :=
  (dispatchNotificationEvent isFinal upper settings (taskFailed uuid status) none fun _ => .ok ()).2

end

def World.sentFor (world : World Result) (task : TaskId) : List Sent := world.sent.filter fun sent => sent.task = task

/-! ## Steps of the pool -/

section

open BackgroundWorkerPool

variable {config : PoolConfig} {before after : BackgroundWorkerPool Result} {worker : Nat}

def NotFailed (pool : BackgroundWorkerPool Result) (task : TaskId) : Prop :=
  ∀ status, pool.tasks task = some status → status.status ≠ .failed

structure Quiet (before after : BackgroundWorkerPool Result) : Prop where
  tasks : ∀ task, after.tasks task = before.tasks task ∨ (NotFailed before task ∧ NotFailed after task)
  notifying : ∀ (worker : Nat) (task : TaskId),
    after.workers[worker]? = some (.notifying task) ↔ before.workers[worker]? = some (.notifying task)

theorem notifying_set {workers : List Worker} {state : Worker} (idle : ∀ task, workers[worker]? ≠ some (.notifying task))
    (other : ∀ task, state ≠ .notifying task) (slot : Nat) (task : TaskId) :
    (workers.set worker state)[slot]? = some (.notifying task) ↔ workers[slot]? = some (.notifying task) := by
  by_cases own : worker = slot
  · subst own
    refine iff_of_false ?_ (idle task)
    rw [List.getElem?_set_self']
    intro found
    cases Option.map_eq_some_iff.mp found with
    | intro _ rest => exact other task rest.2
  · rw [List.getElem?_set_ne own]

theorem not_notifying {state : Worker} (found : before.workers[worker]? = some state)
    (other : ∀ task, state ≠ .notifying task) (task : TaskId) : before.workers[worker]? ≠ some (.notifying task) := by
  intro notifying
  exact other task (Option.some.inj (found.symm.trans notifying))

theorem quiet_of_step {label : BackgroundWorkerPool.Label Result} (accounted : before.toPool.Accounted)
    (stepped : BackgroundWorkerPool.step config before label = some after)
    (finishes : ∀ worker outcome finishedAt, label ≠ .finish worker outcome finishedAt)
    (notifies : ∀ worker outcome finishedAt, label ≠ .notified worker outcome finishedAt) : Quiet before after := by
  cases transition_of_step stepped with
  | restarted | rejected | swallowed | stopReturned => exact ⟨fun _ => .inl rfl, fun _ _ => .rfl⟩
  | stopCalled =>
    unfold BackgroundWorkerPool.stop
    split
    next => exact ⟨fun _ => .inl rfl, fun _ _ => .rfl⟩
    next => exact ⟨fun _ => .inl rfl, fun _ _ => .rfl⟩
  | started stopped =>
    rw [BackgroundWorkerPool.start, if_neg (by simp [stopped])]
    refine ⟨fun _ => .inl rfl, fun worker task => ?_⟩
    dsimp only
    rw [List.getElem?_append]
    split
    next => rfl
    next beyond =>
      -- The new loops wait for the queue.
      rw [List.getElem?_eq_none_iff.mpr (Nat.not_lt.mp beyond), List.getElem?_replicate]
      split <;> simp
  | submitted task records queuedAt status answer fresh room =>
    refine ⟨fun other => ?_, fun _ _ => .rfl⟩
    by_cases own : other = task
    · refine .inr ⟨fun status found => ?_, fun status found => ?_⟩
      · rw [own, fresh] at found
        cases found
      · rw [own] at found
        simp only [accepted, Function.update_self, Option.some.injEq] at found
        subst found
        simp
    · exact .inl (accepted_tasks_of_ne own)
  | taken worker startedAt task records queue waits head =>
    refine ⟨fun other => ?_, notifying_set (not_notifying waits (by simp)) (by simp)⟩
    by_cases own : other = task
    · have member : task ∈ before.toPool.waiting := by
        rw [Pool.waiting, head]
        exact List.mem_cons_self
      obtain ⟨old, known, queued, -⟩ := accounted.queued task member
      refine .inr ⟨fun status found => ?_, fun status found => ?_⟩
      · rw [own, known] at found
        cases found
        rw [queued]
        simp
      · rw [own] at found
        simp only [Pool.setWorker, Pool.setStatus, Function.update_self, known, Option.map_some,
          Option.some.injEq] at found
        subst found
        simp
    · exact .inl (Function.update_of_ne own _ _)
  | forgotten worker startedAt task records queue waits =>
    exact ⟨fun _ => .inl rfl, notifying_set (not_notifying waits (by simp)) (by simp)⟩
  | finished worker outcome finishedAt => exact absurd rfl (finishes worker outcome finishedAt)
  | notified worker outcome finishedAt => exact absurd rfl (notifies worker outcome finishedAt)
  | quit worker waits => exact ⟨fun _ => .inl rfl, notifying_set (not_notifying waits (by simp)) (by simp)⟩

/-- The processor of a worker ends: with a task that fails and its callback, or
with another task that the worker lets go of. -/
theorem finish_cases {outcome : Outcome Result String} {finishedAt : DateTime} (notifies : config.notifies = true)
    (stepped : BackgroundWorkerPool.step config before (.finish worker outcome finishedAt) = some after) :
    ∃ (task : TaskId) (records : List RecordRequest)
      (change : BackgroundTaskStatus Result → BackgroundTaskStatus Result) (state : Worker),
      before.workers[worker]? = some (.processing task records) ∧
      after.tasks = Function.update before.tasks task ((before.tasks task).map change) ∧
      after.workers = before.workers.set worker state ∧
      (state = .notifying task ∧ (∀ old, (change old).status = .failed) ∨
        (∀ other, state ≠ .notifying other) ∧ ∀ old, (change old).status ≠ .failed) := by
  obtain ⟨next, finished, rfl⟩ := Option.map_eq_some_iff.mp stepped
  unfold Pool.finish at finished
  split at finished
  next task records busy =>
    cases outcome with
    | returned result =>
      cases finished
      exact ⟨task, records, _, .waiting, busy, rfl, rfl, .inr ⟨nofun, fun _ => nofun⟩⟩
    | cancelled =>
      cases finished
      exact ⟨task, records, _, .ended, busy, rfl, rfl, .inr ⟨nofun, fun _ => nofun⟩⟩
    | raised error =>
      simp only [notifies, if_true] at finished
      cases finished
      exact ⟨task, records, _, .notifying task, busy, rfl, rfl, .inl ⟨rfl, fun _ => rfl⟩⟩
  next => cases finished

theorem notified_cases {outcome : Outcome Unit String} {finishedAt : DateTime}
    (stepped : BackgroundWorkerPool.step config before (.notified worker outcome finishedAt) = some after) :
    ∃ (task : TaskId) (state : Worker), before.workers[worker]? = some (.notifying task) ∧
      after.tasks = Function.update before.tasks task
        ((before.tasks task).map fun status => { status with finishedAt := some finishedAt }) ∧
      after.workers = before.workers.set worker state ∧ ∀ other, state ≠ .notifying other := by
  obtain ⟨next, finished, rfl⟩ := Option.map_eq_some_iff.mp stepped
  unfold Pool.notified at finished
  split at finished
  next task calls =>
    cases finished
    refine ⟨task, _, calls, rfl, rfl, fun other => ?_⟩
    split <;> exact nofun
  next => cases finished

end

/-! ## What has been sent -/

section

variable {isFinal : List Char → List Char → Bool} {upper : String → String} {uuid : TaskId → String}
  {settings : NotificationSettings} {config : PoolConfig} {before after world : World Result} {worker : Nat}
  {task : TaskId} {status : BackgroundTaskStatus Result}

def World.posts (world : World Result) (task : TaskId) : List Post := (world.sentFor task).map Sent.post

def World.Uncancelled (world : World Result) (task : TaskId) : Prop :=
  ∀ sent ∈ world.sentFor task, sent.outcome ≠ .cancelled

theorem alerts_eq : alerts isFinal upper uuid settings status =
    requests isFinal upper settings (taskFailed uuid status) (alertChannels isFinal settings) := by
  rw [alerts, dispatch_posts, alertChannels]
  split
  next => rfl
  next => rfl

structure Calling (isFinal : List Char → List Char → Bool) (upper : String → String) (uuid : TaskId → String)
    (settings : NotificationSettings) (world : World Result) (worker : Nat) (callback : Callback) : Prop where
  worker : world.pool.workers[worker]? = some (.notifying callback.task)
  alert : ∃ status, world.pool.tasks callback.task = some status ∧ callback.notification = taskFailed uuid status ∧
    world.posts callback.task ++ requests isFinal upper settings callback.notification callback.channels =
      alerts isFinal upper uuid settings status
  uncancelled : world.Uncancelled callback.task

structure Alerting (isFinal : List Char → List Char → Bool) (upper : String → String) (uuid : TaskId → String)
    (settings : NotificationSettings) (world : World Result) : Prop where
  accounted : world.pool.toPool.Accounted
  calling : ∀ worker callback, world.callbacks worker = some callback →
    Calling isFinal upper uuid settings world worker callback
  called : ∀ worker task, world.pool.workers[worker]? = some (.notifying task) →
    ∃ callback, world.callbacks worker = some callback ∧ callback.task = task
  ended : ∀ task status, world.pool.tasks task = some status → status.status = .failed →
    status.finishedAt.isSome = true → world.posts task <+: alerts isFinal upper uuid settings status ∧
      (world.Uncancelled task → world.posts task = alerts isFinal upper uuid settings status)
  silent : ∀ task, NotFailed world.pool task → world.sentFor task = []

/-- A call is where it was if nothing has happened to its worker and its task. -/
theorem Calling.frame {callback : Callback} {slot : Nat} {callbacks : Nat → Option Callback} {sent : List Sent}
    {pool : BackgroundWorkerPool Result} (calling : Calling isFinal upper uuid settings before slot callback)
    (workers : pool.workers[slot]? = before.pool.workers[slot]?)
    (tasks : pool.tasks callback.task = before.pool.tasks callback.task)
    (same : (World.mk pool callbacks sent).sentFor callback.task = before.sentFor callback.task) :
    Calling isFinal upper uuid settings ⟨pool, callbacks, sent⟩ slot callback := by
  obtain ⟨found, ⟨status, known, event, rest⟩, uncancelled⟩ := calling
  refine ⟨workers.trans found, ⟨status, tasks.trans known, event, ?_⟩, fun request member => ?_⟩
  · exact (congrArg (fun sent => List.map Sent.post sent ++ _) same).trans rest
  · exact uncancelled request (same ▸ member)

theorem Alerting.initial : Alerting isFinal upper uuid settings (.initial : World Result) where
  accounted := .initial
  calling := fun _ _ present => by cases present
  called := fun _ _ found => by cases found
  ended := fun _ _ found => by cases found
  silent := fun _ _ => rfl

theorem Alerting.quiet (alerting : Alerting isFinal upper uuid settings before) {pool : BackgroundWorkerPool Result}
    (accounted : pool.toPool.Accounted) (quiet : Quiet before.pool pool) :
    Alerting isFinal upper uuid settings { before with pool } where
  accounted := accounted
  calling := by
    intro worker callback present
    obtain ⟨found, ⟨status, known, event, posted⟩, uncancelled⟩ := alerting.calling worker callback present
    refine ⟨(quiet.notifying worker callback.task).mpr found, ⟨status, ?_, event, posted⟩, uncancelled⟩
    rcases quiet.tasks callback.task with same | ⟨fine, -⟩
    · exact same.trans known
    · -- The task has failed, or the worker would not be in its callback.
      obtain ⟨own, knownToo, fits⟩ := alerting.accounted.held worker _ callback.task found rfl
      cases fits with
      | notifying failed => exact absurd failed (fine own knownToo)
      | idle _ empty => cases empty
  called := fun worker task found => alerting.called worker task ((quiet.notifying worker task).mp found)
  ended := by
    intro task status known failed
    rcases quiet.tasks task with same | ⟨-, fine⟩
    · exact alerting.ended task status (same ▸ known) failed
    · exact absurd failed (fine status known)
  silent := by
    intro task fine
    rcases quiet.tasks task with same | ⟨old, -⟩
    · exact alerting.silent task fun status known => fine status (same.trans known)
    · exact alerting.silent task old

theorem Alerting.failed (alerting : Alerting isFinal upper uuid settings world)
    (found : world.pool.workers[worker]? = some (.notifying task)) :
    ∃ status, world.pool.tasks task = some status ∧ status.status = .failed ∧ status.finishedAt = none := by
  obtain ⟨status, known, fits⟩ := alerting.accounted.held worker _ task found rfl
  cases fits with
  | notifying failed unfinished => exact ⟨status, known, failed, unfinished⟩
  | idle _ empty => cases empty

theorem Alerting.apart (alerting : Alerting isFinal upper uuid settings world) {other : Nat} {state : Worker}
    (found : world.pool.workers[worker]? = some state) (held : state.held = some task)
    (calls : world.pool.workers[other]? = some (.notifying task)) : worker = other :=
  alerting.accounted.single worker other task (Pool.heldBy_iff.mpr ⟨state, found, held⟩)
    (Pool.heldBy_iff.mpr ⟨_, calls, rfl⟩)

theorem Alerting.accounted_step (alerting : Alerting isFinal upper uuid settings before)
    {label : BackgroundWorkerPool.Label Result} {pool : BackgroundWorkerPool Result}
    (stepped : BackgroundWorkerPool.step config before.pool label = some pool) : pool.toPool.Accounted := by
  have moved : (BackgroundWorkerPool.machine Result config).step before.pool label = some pool := stepped
  exact BackgroundWorkerPool.accounted_step alerting.accounted moved

theorem Alerting.finish (notifies : config.notifies = true) (alerting : Alerting isFinal upper uuid settings before)
    {outcome : Outcome Result String} {finishedAt : DateTime} {pool : BackgroundWorkerPool Result}
    (stepped : BackgroundWorkerPool.step config before.pool (.finish worker outcome finishedAt) = some pool) :
    Alerting isFinal upper uuid settings { before with
      pool
      callbacks := Function.update before.callbacks worker (TaskAlerts.called isFinal uuid settings pool worker) } := by
  have accounted : pool.toPool.Accounted := alerting.accounted_step stepped
  obtain ⟨task, records, change, state, busy, tasks, workers, ends⟩ := finish_cases notifies stepped
  have inside := (List.getElem?_eq_some_iff.mp busy).1
  have here : pool.workers[worker]? = some state := by rw [workers, List.getElem?_set_self inside]
  have elsewhere {other : Nat} (different : other ≠ worker) : pool.workers[other]? = before.pool.workers[other]? := by
    rw [workers, List.getElem?_set_ne different.symm]
  -- Nothing has been sent for a task that was being processed.
  obtain ⟨old, known, running⟩ : ∃ old, before.pool.tasks task = some old ∧ old.status = .running := by
    obtain ⟨old, known, fits⟩ := alerting.accounted.held worker _ task busy rfl
    cases fits with
    | processing _ running => exact ⟨old, known, running⟩
    | idle _ empty => cases empty
  have nothing : before.sentFor task = [] := by
    refine alerting.silent task fun status found => ?_
    cases known.symm.trans found
    rw [running]
    exact nofun
  have now : pool.tasks task = some (change old) := by rw [tasks, Function.update_self, known, Option.map_some]
  have others {other : TaskId} (different : other ≠ task) : pool.tasks other = before.pool.tasks other := by
    rw [tasks, Function.update_of_ne different]
  refine ⟨accounted, ?_, ?_, ?_, ?_⟩
  case refine_1 =>
    intro slot callback present
    dsimp only at present
    by_cases own : slot = worker
    · subst own
      rw [Function.update_self, TaskAlerts.called, here] at present
      rcases ends with ⟨same, -⟩ | ⟨idle, -⟩
      · subst same
        dsimp only at present
        rw [now] at present
        cases present
        have posts : before.posts task = [] := congrArg (List.map Sent.post) nothing
        refine ⟨here, ⟨change old, now, rfl, ?_⟩, ?_⟩
        · exact (congrArg (· ++ _) posts).trans alerts_eq.symm
        · intro sent member
          have member : sent ∈ before.sentFor task := member
          rw [nothing] at member
          exact absurd member List.not_mem_nil
      · split at present
        next same => exact absurd (Option.some.inj same) (idle _)
        next => cases present
    · rw [Function.update_of_ne own] at present
      have calling := alerting.calling slot callback present
      have different : callback.task ≠ task := by
        intro same
        exact own (alerting.apart busy rfl (same ▸ calling.worker)).symm
      exact calling.frame (elsewhere own) (others different) rfl
  case refine_2 =>
    intro slot other found
    dsimp only
    by_cases own : slot = worker
    · subst own
      cases here.symm.trans found
      rcases ends with ⟨same, -⟩ | ⟨idle, -⟩
      · cases same
        rw [Function.update_self, TaskAlerts.called, here]
        dsimp only
        rw [now]
        exact ⟨_, rfl, rfl⟩
      · exact absurd rfl (idle other)
    · rw [Function.update_of_ne own]
      exact alerting.called slot other ((elsewhere own).symm.trans found)
  case refine_3 =>
    intro other status found failed finished
    by_cases own : other = task
    · rw [own] at found
      cases now.symm.trans found
      rcases ends with ⟨same, -⟩ | ⟨-, fine⟩
      · -- A task whose callback begins is not finished.
        subst same
        obtain ⟨status, foundToo, fits⟩ := accounted.held worker _ task here rfl
        cases now.symm.trans foundToo
        rw [fits.unfinished rfl] at finished
        cases finished
      · exact absurd failed (fine old)
    · exact alerting.ended other status ((others own).symm.trans found) failed finished
  case refine_4 =>
    intro other fine
    by_cases own : other = task
    · exact own ▸ nothing
    · exact alerting.silent other fun status found => fine status ((others own).trans found)

/-- A call goes on; `sent` may hold one request more for its task. -/
theorem Alerting.goes (alerting : Alerting isFinal upper uuid settings before) {callback : Callback}
    (present : before.callbacks worker = some callback) {channels : List Channel} {sent : List Sent}
    (others : ∀ other ≠ callback.task, (World.mk before.pool before.callbacks sent).sentFor other = before.sentFor other)
    (posted : ((World.mk before.pool before.callbacks sent).posts callback.task) ++
      requests isFinal upper settings callback.notification channels =
        before.posts callback.task ++ requests isFinal upper settings callback.notification callback.channels)
    (uncancelled : (World.mk before.pool before.callbacks sent).Uncancelled callback.task) :
    Alerting isFinal upper uuid settings { before with
      callbacks := Function.update before.callbacks worker (some { callback with channels })
      sent } where
  accounted := alerting.accounted
  calling := by
    intro slot other assigned
    dsimp only at assigned
    by_cases own : slot = worker
    · subst own
      rw [Function.update_self] at assigned
      cases assigned
      obtain ⟨found, ⟨status, known, event, rest⟩, -⟩ := alerting.calling slot callback present
      exact ⟨found, ⟨status, known, event, posted.trans rest⟩, uncancelled⟩
    · rw [Function.update_of_ne own] at assigned
      have calling := alerting.calling slot other assigned
      have different : other.task ≠ callback.task := by
        intro same
        exact own (alerting.apart calling.worker rfl (same ▸ (alerting.calling worker callback present).worker))
      exact calling.frame rfl rfl (others other.task different)
  called := by
    intro slot task found
    dsimp only
    by_cases own : slot = worker
    · subst own
      obtain ⟨known, seen, same⟩ := alerting.called slot task found
      cases present.symm.trans seen
      exact ⟨_, Function.update_self _ _ _, same⟩
    · rw [Function.update_of_ne own]
      exact alerting.called slot task found
  ended := by
    intro task status known failed finished
    -- The task of the call is not finished.
    have different : task ≠ callback.task := by
      rintro rfl
      obtain ⟨old, seen, -, unfinished⟩ := alerting.failed (alerting.calling worker callback present).worker
      cases seen.symm.trans known
      rw [unfinished] at finished
      cases finished
    have same := others task different
    obtain ⟨part, whole⟩ := alerting.ended task status known failed finished
    have posts : (World.mk before.pool before.callbacks sent).posts task = before.posts task :=
      congrArg (List.map Sent.post) same
    exact ⟨posts ▸ part, fun kept => posts.trans (whole fun request member => kept request (same.symm ▸ member))⟩
  silent := by
    intro task fine
    have different : task ≠ callback.task := by
      rintro rfl
      obtain ⟨old, seen, failed, -⟩ := alerting.failed (alerting.calling worker callback present).worker
      exact fine old seen failed
    exact (others task different).trans (alerting.silent task fine)

theorem Alerting.leaves (alerting : Alerting isFinal upper uuid settings before) {callback : Callback}
    (present : before.callbacks worker = some callback) {outcome : Outcome Unit String} {finishedAt : DateTime}
    {pool : BackgroundWorkerPool Result} {sent : List Sent}
    (stepped : BackgroundWorkerPool.step config before.pool (.notified worker outcome finishedAt) = some pool)
    (others : ∀ other ≠ callback.task, (World.mk pool before.callbacks sent).sentFor other = before.sentFor other)
    (posted : ∃ rest, (World.mk pool before.callbacks sent).posts callback.task ++ rest =
        before.posts callback.task ++ requests isFinal upper settings callback.notification callback.channels ∧
      ((World.mk pool before.callbacks sent).Uncancelled callback.task → rest = [])) :
    Alerting isFinal upper uuid settings
      { pool, callbacks := Function.update before.callbacks worker none, sent } := by
  have accounted : pool.toPool.Accounted := alerting.accounted_step stepped
  obtain ⟨calls, ⟨old, known, event, alert⟩, -⟩ := alerting.calling worker callback present
  obtain ⟨task, state, found, tasks, workers, idle⟩ := notified_cases stepped
  cases found.symm.trans calls
  have inside := (List.getElem?_eq_some_iff.mp found).1
  have elsewhere {slot : Nat} (different : slot ≠ worker) : pool.workers[slot]? = before.pool.workers[slot]? := by
    rw [workers, List.getElem?_set_ne different.symm]
  have now : pool.tasks callback.task = some { old with finishedAt := some finishedAt } := by
    rw [tasks, Function.update_self, known, Option.map_some]
  have tasksOf {other : TaskId} (different : other ≠ callback.task) : pool.tasks other = before.pool.tasks other := by
    rw [tasks, Function.update_of_ne different]
  have failed : old.status = .failed := by
    obtain ⟨same, seen, failed, -⟩ := alerting.failed calls
    cases known.symm.trans seen
    exact failed
  refine ⟨accounted, ?_, ?_, ?_, ?_⟩
  case refine_1 =>
    intro slot other assigned
    dsimp only at assigned
    by_cases own : slot = worker
    · rw [own, Function.update_self] at assigned
      cases assigned
    · rw [Function.update_of_ne own] at assigned
      have calling := alerting.calling slot other assigned
      have different : other.task ≠ callback.task := by
        intro same
        exact own (alerting.apart calling.worker rfl (same ▸ calls))
      exact calling.frame (elsewhere own) (tasksOf different) (others other.task different)
  case refine_2 =>
    intro slot other notifying
    dsimp only
    by_cases own : slot = worker
    · subst own
      rw [workers, List.getElem?_set_self inside] at notifying
      exact absurd (Option.some.inj notifying) (idle other)
    · rw [Function.update_of_ne own]
      exact alerting.called slot other ((elsewhere own).symm.trans notifying)
  case refine_3 =>
    intro other status seen fails finished
    by_cases own : other = callback.task
    · subst own
      cases now.symm.trans seen
      obtain ⟨rest, whole, complete⟩ := posted
      -- The alert does not depend on when the task is finished.
      have alert : (World.mk pool before.callbacks sent).posts callback.task ++ rest =
          alerts isFinal upper uuid settings old := whole.trans alert
      refine ⟨⟨rest, alert⟩, fun kept => ?_⟩
      rw [complete kept, List.append_nil] at alert
      exact alert
    · have same := others other own
      obtain ⟨part, whole⟩ := alerting.ended other status ((tasksOf own).symm.trans seen) fails finished
      have posts : (World.mk pool before.callbacks sent).posts other = before.posts other :=
        congrArg (List.map Sent.post) same
      exact ⟨posts ▸ part, fun kept => posts.trans (whole fun request member => kept request (same.symm ▸ member))⟩
  case refine_4 =>
    intro other fine
    have different : other ≠ callback.task := by
      rintro rfl
      exact fine _ now failed
    exact (others other different).trans (alerting.silent other fun status seen => fine status
      ((tasksOf different).trans seen))

/-! ## Requests -/

theorem requests_cons (notification : Notification) (channel : Channel) (channels : List Channel) :
    requests isFinal upper settings notification (channel :: channels) =
      (dispatchToChannel isFinal upper settings notification channel).toOption.toList ++
        requests isFinal upper settings notification channels := by
  unfold requests
  rw [List.filterMap_cons]
  cases (dispatchToChannel isFinal upper settings notification channel).toOption <;> rfl

theorem sentFor_snoc (pool : BackgroundWorkerPool Result) (callbacks : Nat → Option Callback) (sent : List Sent)
    (new : Sent) (task : TaskId) :
    (World.mk pool callbacks (sent ++ [new])).sentFor task =
      sent.filter (fun sent => sent.task = task) ++ if new.task = task then [new] else [] := by
  rw [World.sentFor, List.filter_append, List.filter_singleton]
  by_cases own : new.task = task
  · simp [own]
  · simp [own]

theorem Alerting.step (notifies : config.notifies = true) (alerting : Alerting isFinal upper uuid settings before)
    {label : Label Result} (stepped : (machine isFinal upper uuid settings config Result).step before label = some after) :
    Alerting isFinal upper uuid settings after := by
  cases label with
  | pool label =>
    cases label with
    | notified worker outcome finishedAt => cases stepped
    | finish worker outcome finishedAt =>
      obtain ⟨pool, moved, rfl⟩ := Option.map_eq_some_iff.mp stepped
      exact alerting.finish notifies moved
    | start | submit | dequeue | quit | swallow | stop | stopped =>
      simp only [machine, TaskAlerts.step, Option.map_eq_some_iff] at stepped
      obtain ⟨pool, moved, rfl⟩ := stepped
      exact alerting.quiet (alerting.accounted_step moved) (quiet_of_step alerting.accounted moved nofun nofun)
  | skip worker =>
    obtain ⟨callback, present, stepped⟩ := Option.bind_eq_some_iff.mp stepped
    split at stepped
    next => cases stepped
    next channel channels rest =>
      split at stepped
      next => cases stepped
      next error refused =>
        cases stepped
        refine alerting.goes present (fun _ _ => rfl) ?_ (alerting.calling worker callback present).uncancelled
        rw [rest, requests_cons, refused]
        rfl
  | post worker outcome finishedAt =>
    obtain ⟨callback, present, stepped⟩ := Option.bind_eq_some_iff.mp stepped
    split at stepped
    next => cases stepped
    next channel channels rest =>
      split at stepped
      next => cases stepped
      next post made =>
        have others (pool : BackgroundWorkerPool Result) (other : TaskId) (different : other ≠ callback.task) :
            (World.mk pool before.callbacks (before.sent ++ [⟨callback.task, post, outcome⟩])).sentFor other =
              before.sentFor other := by
          rw [sentFor_snoc, if_neg different.symm, List.append_nil]
          rfl
        have own (pool : BackgroundWorkerPool Result) :
            (World.mk pool before.callbacks (before.sent ++ [⟨callback.task, post, outcome⟩])).sentFor callback.task =
              before.sentFor callback.task ++ [⟨callback.task, post, outcome⟩] := by
          rw [sentFor_snoc, if_pos rfl]
          rfl
        have posted (pool : BackgroundWorkerPool Result) :
            (World.mk pool before.callbacks (before.sent ++ [⟨callback.task, post, outcome⟩])).posts callback.task ++
              requests isFinal upper settings callback.notification channels =
            before.posts callback.task ++
              requests isFinal upper settings callback.notification callback.channels := by
          rw [rest, requests_cons, made, World.posts, own, List.map_append, List.append_assoc]
          rfl
        dsimp only at stepped
        split at stepped
        next cancelled =>
          obtain ⟨pool, moved, rfl⟩ := Option.map_eq_some_iff.mp stepped
          refine alerting.leaves present moved (others pool) ⟨_, posted pool, fun kept => ?_⟩
          refine absurd cancelled (kept ⟨callback.task, post, outcome⟩ ?_)
          rw [own]
          exact List.mem_append_right _ (List.mem_singleton_self _)
        next kept =>
          cases stepped
          refine alerting.goes present (others before.pool) (posted before.pool) fun sent member => ?_
          rw [own] at member
          rcases List.mem_append.mp member with old | new
          · exact (alerting.calling worker callback present).uncancelled sent old
          · rw [List.mem_singleton.mp new]
            exact kept
  | done worker finishedAt =>
    obtain ⟨callback, present, stepped⟩ := Option.bind_eq_some_iff.mp stepped
    split at stepped
    next none =>
      obtain ⟨pool, moved, rfl⟩ := Option.map_eq_some_iff.mp stepped
      refine alerting.leaves present moved (fun _ _ => rfl) ⟨[], ?_, fun _ => rfl⟩
      rw [none]
      rfl
    next => cases stepped

/-- In every run, nothing is sent for a task that has not failed. What is sent for a
failed task is, in order, what a dispatch of its alert posts, each request once,
though the other workers go on and other requests fail: at most the first part
while the task is not finished, and all of it afterwards, unless a cancellation
reached one of its requests. -/
theorem failures_announced (notifies : config.notifies = true) (labels : List (Label Result)) {world : World Result}
    (ran : (machine isFinal upper uuid settings config Result).run .initial labels = some world) (task : TaskId) :
    (NotFailed world.pool task → world.sentFor task = []) ∧
      ∀ status, world.pool.tasks task = some status → status.status = .failed →
        world.posts task <+: alerts isFinal upper uuid settings status ∧
          (status.finishedAt.isSome = true → world.Uncancelled task →
            world.posts task = alerts isFinal upper uuid settings status) := by
  have alerting : Alerting isFinal upper uuid settings world :=
    Machine.invariant_of_step _ .initial (fun _ _ _ alerting => alerting.step notifies) ran
  refine ⟨alerting.silent task, fun status known failed => ?_⟩
  -- A failed task is in its callback or has ended.
  rcases alerting.accounted.rest task status known with queued | ⟨worker, held⟩ | ended
  · cases queued.symm.trans failed
  · obtain ⟨state, found, holds⟩ := Pool.heldBy_iff.mp held
    obtain ⟨same, seen, fits⟩ := alerting.accounted.held worker state task found holds
    cases known.symm.trans seen
    cases fits with
    | processing _ running => cases running.symm.trans failed
    | idle _ empty => cases empty.symm.trans holds
    | notifying _ unfinished =>
      obtain ⟨callback, present, rfl⟩ := alerting.called worker task found
      obtain ⟨-, ⟨status, seen, -, alert⟩, -⟩ := alerting.calling worker callback present
      cases known.symm.trans seen
      refine ⟨⟨_, alert⟩, fun finished => ?_⟩
      rw [unfinished] at finished
      cases finished
  · obtain ⟨part, whole⟩ := alerting.ended task status known failed ended.2
    exact ⟨part, fun _ => whole⟩

end

/-! ## A task that fails -/

def onCall : NotificationSettings where
  enabled := true
  defaultChannels := "Webhook, slack ,telegram"
  slackWebhookUrl := none
  telegramBotToken := some "t"
  telegramChatId := some "7"
  webhookUrl := some "http://hook"
  emailProvider := "resend"
  resendApiKey := none
  emailFrom := none
  emailTo := none

def callingPool : PoolConfig := ⟨1, 1, 10, true⟩

def failingTask : List (Label Unit) :=
  [.pool .start, .pool (.submit 0 [] (january 9)), .pool (.dequeue 0 (january 9)),
    .pool (.finish 0 (.raised "boom") (january 9)), .post 0 (.raised "timeout") (january 9), .skip 0,
    .post 0 (.returned ()) (january 9), .done 0 (january 10)]

def onCallMachine : Machine (World Unit) (Label Unit) :=
  machine (fun _ _ => false) id (fun _ => "u") onCall callingPool Unit

theorem failingTask_announced : ∃ world, onCallMachine.run .initial failingTask = some world ∧
    (world.posts 0).map Post.url = ["http://hook", "https://api.telegram.org/bott/sendMessage"] ∧
    ∀ status, world.pool.tasks 0 = some status → status.status = .failed ∧
      world.posts 0 = alerts (fun _ _ => false) id (fun _ => "u") onCall status := by
  have ends : (onCallMachine.run .initial failingTask).any fun world =>
      (world.posts 0).map Post.url = ["http://hook", "https://api.telegram.org/bott/sendMessage"] ∧
        (∀ sent ∈ world.sentFor 0, sent.outcome ≠ .cancelled) ∧
        ∀ status ∈ world.pool.tasks 0, status.status = .failed ∧ status.finishedAt.isSome = true := by
    decide +kernel
  obtain ⟨world, ran, ends⟩ := (Option.any_eq_true _ _).mp ends
  obtain ⟨urls, uncancelled, statuses⟩ := of_decide_eq_true ends
  refine ⟨world, ran, urls, fun status known => ?_⟩
  obtain ⟨failed, finished⟩ := statuses status known
  exact ⟨failed, (((failures_announced rfl failingTask ran 0).2 status known failed).2 finished uncancelled)⟩

end DataPipeline.Ingestor.TaskAlerts
