import DataPipeline.Ingestor.PoolLifecycle

/-! No task of a running worker pool is lost, taken twice or overtaken.

The queue, the history and the statuses are tied to one list, of the tasks in the
order in which they were accepted: the started ones come first and the queue is
the rest. A history as long as the queue then never forgets a task that waits.
-/

set_option autoImplicit false

namespace DataPipeline.Ingestor

open Execution Calendar

structure TaskHistory where
  accepted : List TaskId
  started : List TaskId
  deriving DecidableEq

inductive Place where
  | queue
  | worker (index : Nat)
  | finished
  deriving DecidableEq

namespace BackgroundWorkerPool

variable {Result : Type}

def note (config : PoolConfig) (history : TaskHistory) (before : BackgroundWorkerPool Result) (label : Label Result)
    (after : BackgroundWorkerPool Result) : TaskHistory :=
  match label with
  | .submit task records queuedAt =>
    match (before.submitBatchIngest config task records queuedAt).1 with
    | .ok _ => { history with accepted := history.accepted ++ [task] }
    | .error _ => history
  | .dequeue worker _ =>
    match after.workers[worker]?.bind Worker.held with
    | some task => { history with started := history.started ++ [task] }
    | none => history
  | _ => history

def taskHistory (config : PoolConfig) (labels : List (Label Result)) : TaskHistory :=
  (machine Result config).observe (note config) ⟨[], []⟩ .empty labels

/-- Steps of a pool that is not stopped, whose processor and failure callback
return or raise an exception. -/
def Label.Ordinary : Label Result → Prop
  | .start | .submit _ _ _ | .dequeue _ _ => True
  | .finish _ outcome _ => outcome ≠ .cancelled
  | .notified _ outcome _ => outcome ≠ .cancelled
  | .quit _ | .swallow _ | .stop | .stopped _ => False

def At (pool : BackgroundWorkerPool Result) (task : TaskId) : Place → Prop
  | .queue => task ∈ pool.waiting
  | .worker index => pool.HeldBy task index
  | .finished => ∃ status, pool.tasks task = some status ∧ status.Ended

/-- The tasks of the pool against what was accepted and started. -/
structure Conserved (config : PoolConfig) (pool : BackgroundWorkerPool Result) (history : TaskHistory) : Prop where
  /-- Tasks start in the order in which they were accepted. -/
  inOrder : history.started ++ pool.waiting = history.accepted
  once : history.accepted.Nodup ∧ history.started.Nodup
  placed : ∀ task ∈ history.accepted, ∃! place, pool.At task place
  queued : ∀ task ∈ pool.waiting, ∃ status, pool.getTaskStatus task = some status ∧ status.status = .queued
  counter : (pool.healthSummary config).tasks .queued = pool.queue.length
  full : ∀ task records queuedAt, pool.running = true → pool.full config = true →
    (pool.submitBatchIngest config task records queuedAt).1 = .error "Background queue is full"
  rejected : ∀ task records queuedAt error, (pool.submitBatchIngest config task records queuedAt).1 = .error error →
    (pool.submitBatchIngest config task records queuedAt).2 = pool
  sameIds : ∀ task, task ∈ pool.order ↔ task ∈ pool.statuses
  distinct : pool.order.Nodup ∧ pool.statuses.Nodup
  bounded : pool.order.length ≤ config.maxTrackedTasks ∧ pool.statuses.length ≤ config.maxTrackedTasks

structure Orderly (config : PoolConfig) (pool : BackgroundWorkerPool Result) (history : TaskHistory) : Prop where
  accounted : pool.toPool.Accounted
  fifo : Pool.Fifo config pool.toPool history.accepted
  known : ∀ task, pool.tasks task ≠ none → task ∈ history.accepted
  keys : pool.statuses = pool.order
  split : history.started ++ pool.waiting = history.accepted
  short : pool.queue.length ≤ config.queueSize
  waits : ∀ task status, pool.tasks task = some status → status.status = .queued → task ∈ pool.waiting

variable {config : PoolConfig} {before after pool : BackgroundWorkerPool Result} {history : TaskHistory}

theorem Orderly.initial (config : PoolConfig) : Orderly config (.empty : BackgroundWorkerPool Result) ⟨[], []⟩ where
  accounted := .initial
  fifo := .initial
  known _ known := absurd rfl known
  keys := rfl
  split := rfl
  short := Nat.zero_le _
  waits _ _ found := by cases found

theorem Orderly.keeps (orderly : Orderly config before history) (accounted : after.toPool.Accounted)
    (known : ∀ task, before.tasks task ≠ none ↔ after.tasks task ≠ none)
    (waits : ∀ task status, after.tasks task = some status → status.status = .queued → before.tasks task = some status)
    (order : after.order = before.order) (keys : after.statuses = before.statuses) (queue : after.queue = before.queue) :
    Orderly config after history where
  accounted := accounted
  fifo := orderly.fifo.keeps order (fun task => (known task).mp) (queue ▸ List.suffix_rfl)
  known task present := orderly.known task ((known task).mpr present)
  keys := by rw [keys, order, orderly.keys]
  split := by rw [Pool.waiting, queue]; exact orderly.split
  short := by rw [queue]; exact orderly.short
  waits task status found queued := by
    rw [Pool.waiting, queue]
    exact orderly.waits task status (waits task status found queued) queued

theorem Orderly.continues {next : Pool Result} {worker : Nat} {task : TaskId} {state : Worker}
    {cancelling : Nat → Bool} (orderly : Orderly config before history)
    (continues : Pool.Continues before.toPool next worker task state) :
    Orderly config { before with toPool := next, cancelling } history := by
  obtain ⟨old, status, present, -, tasks, fits⟩ := orderly.accounted.continued continues
  refine orderly.keeps (orderly.accounted.continues continues) (fun other => ?_) (fun other found known queued => ?_)
    continues.order rfl continues.queue
  · change _ ↔ next.tasks other ≠ none
    rw [tasks, Function.update_apply]
    split
    next same => rw [same, present]; exact iff_of_true (Option.some_ne_none _) (Option.some_ne_none _)
    next => rfl
  · rw [show next.tasks other = _ from congrFun tasks other, Function.update_apply] at known
    split at known
    next => cases known; exact absurd queued fits.not_queued
    next => exact known

theorem Orderly.submitted {task : TaskId} {records : List RecordRequest} {queuedAt : DateTime}
    (orderly : Orderly config before history) (fresh : before.tasks task = none)
    (room : before.queue.length < config.queueSize)
    (accounted : (before.accepted config task records queuedAt).toPool.Accounted) :
    Orderly config (before.accepted config task records queuedAt)
      { history with accepted := history.accepted ++ [task] } := by
  have trimmed : trimStatusHistory config.maxTrackedTasks (before.order ++ [task]) (before.statuses ++ [task]) =
      (Pool.trimStatusHistory config.maxTrackedTasks (before.order ++ [task]),
        Pool.trimStatusHistory config.maxTrackedTasks (before.order ++ [task])) := by
    rw [orderly.keys, trimStatusHistory_same]
  refine ⟨accounted, ?_, ?_, ?_, ?_, ?_, ?_⟩
  · exact orderly.fifo.submitted fresh rfl (congrArg Prod.fst trimmed) rfl
  · intro other known
    by_cases same : other = task
    · exact List.mem_append_right _ (List.mem_singleton.mpr same)
    · refine List.mem_append_left _ (orderly.known other ?_)
      rw [accepted_tasks_of_ne same] at known
      exact known
  · exact (congrArg Prod.snd trimmed).trans (congrArg Prod.fst trimmed).symm
  · change history.started ++ (before.queue ++ [(task, records)]).map Prod.fst = history.accepted ++ [task]
    rw [List.map_append, ← List.append_assoc, ← orderly.split]
    rfl
  · change (before.queue ++ [(task, records)]).length ≤ config.queueSize
    rw [List.length_append, List.length_singleton]
    exact room
  · intro other status found queued
    change other ∈ (before.queue ++ [(task, records)]).map Prod.fst
    rw [List.map_append]
    by_cases same : other = task
    · exact List.mem_append_right _ (List.mem_singleton.mpr same)
    · refine List.mem_append_left _ (orderly.waits other status ?_ queued)
      rw [accepted_tasks_of_ne same] at found
      exact found

theorem Orderly.taken {startedAt : DateTime} {task : TaskId} {records : List RecordRequest}
    {queue : List (TaskId × List RecordRequest)} (orderly : Orderly config before history)
    (head : before.queue = (task, records) :: queue) (tasks : after.tasks = (before.toPool.setStatus task fun status =>
      { status with status := .running, startedAt := some startedAt }).tasks)
    (rest : after.queue = queue) (order : after.order = before.order) (keys : after.statuses = before.statuses)
    (accounted : after.toPool.Accounted) :
    Orderly config after { history with started := history.started ++ [task] } := by
  have waiting : before.waiting = task :: after.waiting := by rw [Pool.waiting, head, List.map_cons, Pool.waiting, rest]
  refine ⟨accounted, ?_, ?_, ?_, ?_, ?_, ?_⟩
  · exact orderly.fifo.keeps order (fun other known => by rw [tasks]; exact Pool.known_setStatus task _ other known)
      (by rw [head, rest]; exact List.suffix_cons _ _)
  · intro other known
    rw [tasks] at known
    refine orderly.known other fun unknown => known ?_
    rw [Pool.setStatus_tasks]
    split
    next same => rw [← same, unknown, Option.map_none]
    next => exact unknown
  · rw [keys, order, orderly.keys]
  · rw [← orderly.split, waiting, List.append_assoc]
    rfl
  · have short := orderly.short
    rw [head, List.length_cons] at short
    rw [rest]
    omega
  · intro other status found queued
    rw [tasks, Pool.setStatus_tasks] at found
    split at found
    next =>
      obtain ⟨old, -, rfl⟩ := Option.map_eq_some_iff.mp found
      cases queued
    next different =>
      have waits := orderly.waits other status found queued
      rw [waiting] at waits
      exact (List.mem_cons.mp waits).resolve_left different

theorem orderly_step (bounded : 0 < config.queueSize) (enough : config.queueSize ≤ config.maxTrackedTasks)
    {label : Label Result} (ordinary : label.Ordinary) (orderly : Orderly config before history)
    (stepped : (machine Result config).step before label = some after) :
    Orderly config after (note config history before label after) := by
  have accounted := accounted_step orderly.accounted stepped
  cases transition_of_step stepped with
  | restarted => exact orderly
  | started stopped =>
    have same : before.start config = _ := if_neg (by rw [stopped]; exact Bool.false_ne_true)
    rw [same] at accounted ⊢
    exact orderly.keeps accounted (fun _ => .rfl) (fun _ _ found _ => found) rfl rfl rfl
  | submitted task records queuedAt status answer fresh room =>
    simp only [note, answer]
    refine orderly.submitted fresh ?_ accounted
    simpa [Pool.full, bounded] using room
  | rejected task records queuedAt error answer =>
    simp only [note, answer]
    exact orderly
  | taken worker startedAt task records queue waits head tracked =>
    have inside : worker < before.workers.length := (List.getElem?_eq_some_iff.mp waits).1
    simp only [note, Pool.setWorker, Pool.setStatus, List.getElem?_set_self inside, Option.bind_some, Worker.held]
    exact orderly.taken head rfl rfl rfl rfl accounted
  | forgotten worker startedAt task records queue waits head untracked =>
    -- The history knows whatever fits into the queue.
    have known := (orderly.fifo.tracked (orderly.short.trans enough)).subset
      (by rw [head, List.map_cons]; exact List.mem_cons_self : task ∈ _)
    rw [orderly.keys] at untracked
    exact absurd known untracked
  | finished worker outcome finishedAt task state next continues => exact orderly.continues continues
  | notified worker outcome finishedAt task state next continues => exact orderly.continues continues
  | quit | swallowed | stopCalled | stopReturned => cases ordinary

/-! ## What the invariant means for tasks and counters -/

/-- A task that was accepted is in one place. -/
theorem Orderly.placed (orderly : Orderly config pool history) {task : TaskId} (accepted : task ∈ history.accepted) :
    ∃! place, pool.At task place := by
  obtain ⟨status, found⟩ := Option.ne_none_iff_exists'.mp (orderly.fifo.known task accepted)
  have accounted := orderly.accounted
  have unfinished : (pool.At task .finished → status.Ended) := by
    rintro ⟨same, foundToo, ended⟩
    cases found.symm.trans foundToo
    exact ended
  rcases accounted.rest task status found with queued | ⟨worker, held⟩ | ended
  · have waits := orderly.waits task status found queued
    refine ⟨.queue, waits, fun place there => ?_⟩
    cases place with
    | queue => rfl
    | worker index => exact absurd there (accounted.not_held waits)
    | finished => exact absurd queued (unfinished there).not_queued
  · refine ⟨.worker worker, held, fun place there => ?_⟩
    cases place with
    | queue => exact absurd held (accounted.not_held there)
    | worker index => rw [accounted.single index worker task there held]
    | finished =>
      exact absurd (unfinished there) (Pool.not_ended_of_unfinished (accounted.held_unfinished held found))
  · refine ⟨.finished, ⟨status, found, ended⟩, fun place there => ?_⟩
    cases place with
    | queue => exact absurd ended (Pool.not_ended_of_unfinished (accounted.waiting_unfinished there found))
    | worker index => exact absurd ended (Pool.not_ended_of_unfinished (accounted.held_unfinished there found))
    | finished => rfl

theorem Orderly.queued (enough : config.queueSize ≤ config.maxTrackedTasks) (orderly : Orderly config pool history)
    {task : TaskId} (waits : task ∈ pool.waiting) :
    ∃ status, pool.getTaskStatus task = some status ∧ status.status = .queued := by
  obtain ⟨status, found, queued, -⟩ := orderly.accounted.queued task waits
  have tracked := (orderly.fifo.tracked (orderly.short.trans enough)).subset waits
  rw [← orderly.keys] at tracked
  exact ⟨status, by rw [getTaskStatus, if_pos tracked, found], queued⟩

theorem Orderly.counter (enough : config.queueSize ≤ config.maxTrackedTasks) (orderly : Orderly config pool history) :
    (pool.healthSummary config).tasks .queued = pool.queue.length := by
  obtain ⟨older, split⟩ := orderly.fifo.tracked (orderly.short.trans enough)
  obtain ⟨-, distinct, -⟩ := orderly.fifo.history
  rw [← split, List.nodup_append] at distinct
  have waiting : ∀ task status, pool.getTaskStatus task = some status → status.status = .queued →
      task ∈ pool.waiting := by
    intro task status found queued
    rw [getTaskStatus, Option.ite_none_right_eq_some] at found
    exact orderly.waits task status found.2 queued
  change (pool.statuses.filterMap pool.getTaskStatus).countP (fun status => status.status = .queued) = _
  rw [List.countP_filterMap, orderly.keys, ← split, List.countP_append, List.countP_eq_zero.mpr, Nat.zero_add,
    List.countP_eq_length.mpr, List.length_map]
  · intro task waits
    obtain ⟨status, found, queued⟩ := orderly.queued enough waits
    rw [found]
    exact decide_eq_true queued
  · intro task old counted
    cases found : pool.getTaskStatus task with
    | none =>
      rw [found] at counted
      cases counted
    | some status =>
      rw [found] at counted
      exact distinct.2.2 task old task (waiting task status found (of_decide_eq_true counted)) rfl

theorem Orderly.conserved (enough : config.queueSize ≤ config.maxTrackedTasks) (orderly : Orderly config pool history) :
    Conserved config pool history := by
  obtain ⟨short, distinct, -⟩ := orderly.fifo.history
  have once : history.started.Nodup := by
    refine orderly.fifo.distinct.sublist ?_
    rw [← orderly.split]
    exact List.sublist_append_left _ _
  refine ⟨orderly.split, ⟨orderly.fifo.distinct, once⟩, fun task => orderly.placed, fun task => orderly.queued enough,
    orderly.counter enough, ?_, ?_, ?_, ?_, ?_⟩
  · intro task records queuedAt running full
    rw [submitBatchIngest, if_neg (by rw [running]; exact Bool.false_ne_true), if_pos full]
  · intro task records queuedAt error answer
    rcases submitBatchIngest_cases config pool task records queuedAt with ⟨same, rejected, -⟩ | ⟨status, accepted, -⟩
    · rw [rejected]
    · rw [accepted] at answer
      cases answer
  · intro task
    rw [orderly.keys]
  · rw [orderly.keys]
    exact ⟨distinct, distinct⟩
  · rw [orderly.keys]
    exact ⟨short, short⟩

/-- In every run of a pool that is not stopped and whose tasks are not
cancelled, tasks start in order, are each in one place, and are all accounted
for by the queue, the statuses and the history. -/
theorem pool_conserved (config : PoolConfig) (bounded : 0 < config.queueSize)
    (enough : config.queueSize ≤ config.maxTrackedTasks) (labels : List (Label Result))
    (ordinary : ∀ label ∈ labels, label.Ordinary) (pool : BackgroundWorkerPool Result)
    (ran : (machine Result config).run .empty labels = some pool) :
    Conserved config pool (taskHistory config labels) := by
  have every : (machine Result config).Every .empty labels fun _ _ label _ => label.Ordinary := by
    intro earlier label later before after split
    subst split
    intro _ _
    exact ordinary label (by simp)
  exact (Machine.invariant_observed (Orderly config) (Orderly.initial config) every
    (fun earlier before label after orderly ordinary stepped => orderly_step bounded enough ordinary orderly stepped)
    ran).conserved enough

def oneSlot : PoolConfig := ⟨1, 1, 10, true⟩

def fullQueue : List (Label Unit) :=
  [.start, .submit 0 [] (january 9), .submit 1 [] (january 9), .dequeue 0 (january 9), .submit 2 [] (january 9),
    .finish 0 (.raised "failed") (january 10), .notified 0 (.returned ()) (january 10)]

theorem pool_conserved_fullQueue :
    taskHistory oneSlot fullQueue = ⟨[0, 2], [0]⟩ ∧
    ∃ pool, (machine Unit oneSlot).run .empty fullQueue = some pool ∧
      Conserved oneSlot pool (taskHistory oneSlot fullQueue) := by
  have runs : ((machine Unit oneSlot).run .empty fullQueue).isSome = true := by decide +kernel
  obtain ⟨pool, ran⟩ := Option.isSome_iff_exists.mp runs
  have ordinary : ∀ label ∈ fullQueue, label.Ordinary := by simp [fullQueue, Label.Ordinary]
  exact ⟨by decide +kernel, pool, ran,
    pool_conserved oneSlot (by decide) (by decide) fullQueue ordinary pool ran⟩

end BackgroundWorkerPool

end DataPipeline.Ingestor
