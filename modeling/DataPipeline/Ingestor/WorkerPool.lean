import DataPipeline.Ingestor.BackgroundWorkers

/-! What the worker pool keeps in every run: live workers and findable tasks.

The queue and the history are both filled by submissions and emptied from the
old end, one by the workers and the other by trimming. Nothing ties the two
together, so the history can forget a task that is still in the queue.
-/

set_option autoImplicit false

namespace DataPipeline.Ingestor

open Execution Calendar

/-- What `Settings` admits. -/
structure PoolConfig.Admitted (config : PoolConfig) : Prop where
  workerCount : 1 ≤ config.workerCount ∧ config.workerCount ≤ 32
  queueSize : 1 ≤ config.queueSize ∧ config.queueSize ≤ 10000
  maxTrackedTasks : 10 ≤ config.maxTrackedTasks ∧ config.maxTrackedTasks ≤ 50000

def TaskState.Terminal (state : TaskState) : Prop := state = .succeeded ∨ state = .failed ∨ state = .cancelled

namespace Pool

variable {Result : Type} {config : PoolConfig} {before after pool : Pool Result}

/-! ## The queue and the history -/

theorem trimStatusHistory_eq (maxTrackedTasks : Nat) (order : List TaskId) :
    trimStatusHistory maxTrackedTasks order = order.drop (order.length - maxTrackedTasks) := by
  induction order with
  | nil => simp only [trimStatusHistory, List.drop_nil]
  | cons oldest order ih =>
    unfold trimStatusHistory
    split
    next long =>
      have more : (oldest :: order).length - maxTrackedTasks = order.length - maxTrackedTasks + 1 := by
        rw [List.length_cons]; omega
      rw [ih, more, List.drop_succ_cons]
    next short =>
      have none : (oldest :: order).length - maxTrackedTasks = 0 := by
        rw [List.length_cons]; omega
      rw [none, List.drop_zero]

theorem trimStatusHistory_append (maxTrackedTasks : Nat) (accepted : List TaskId) (task : TaskId) :
    trimStatusHistory maxTrackedTasks (trimStatusHistory maxTrackedTasks accepted ++ [task]) =
      trimStatusHistory maxTrackedTasks (accepted ++ [task]) := by
  simp only [trimStatusHistory_eq]
  have inside : accepted.length - maxTrackedTasks ≤ accepted.length := Nat.sub_le _ _
  rw [← List.drop_append_of_le_length inside, List.drop_drop]
  congr 1
  simp only [List.length_drop, List.length_append, List.length_singleton]
  omega

/-- What a history that is not too long becomes when a task is added: longer,
or shifted by one. The last case is a history that keeps nothing. -/
theorem trimStatusHistory_cases {maxTrackedTasks : Nat} {order : List TaskId} (task : TaskId)
    (short : order.length ≤ maxTrackedTasks) :
    (order.length < maxTrackedTasks ∧ trimStatusHistory maxTrackedTasks (order ++ [task]) = order ++ [task]) ∨
    (∃ oldest rest, order = oldest :: rest ∧ order.length = maxTrackedTasks ∧
      trimStatusHistory maxTrackedTasks (order ++ [task]) = rest ++ [task]) ∨
    (order = [] ∧ maxTrackedTasks = 0 ∧ trimStatusHistory maxTrackedTasks (order ++ [task]) = []) := by
  rw [trimStatusHistory_eq, List.length_append, List.length_singleton]
  rcases short.lt_or_eq with room | full
  · have none : order.length + 1 - maxTrackedTasks = 0 := by omega
    exact .inl ⟨room, by rw [none, List.drop_zero]⟩
  · have one : order.length + 1 - maxTrackedTasks = 1 := by omega
    rw [one]
    cases order with
    | nil => exact .inr (.inr ⟨rfl, full.symm, rfl⟩)
    | cons oldest rest => exact .inr (.inl ⟨oldest, rest, rfl, full, rfl⟩)

/-- All ids ever accepted, in this order: the queue holds the newest of them,
and so does the history, as many as it may. -/
structure Fifo (config : PoolConfig) (pool : Pool Result) (accepted : List TaskId) : Prop where
  distinct : accepted.Nodup
  known : ∀ task ∈ accepted, pool.tasks task ≠ none
  queue : pool.queue.map Prod.fst <:+ accepted
  order : pool.order = trimStatusHistory config.maxTrackedTasks accepted

theorem Fifo.initial : Fifo config (.empty : Pool Result) [] :=
  ⟨.nil, fun _ member => (by cases member), List.suffix_rfl, by simp [empty, trimStatusHistory]⟩

theorem Fifo.keeps {accepted : List TaskId} (fifo : Fifo config before accepted) (order : after.order = before.order)
    (known : ∀ task, before.tasks task ≠ none → after.tasks task ≠ none) (queue : after.queue <:+ before.queue) :
    Fifo config after accepted where
  distinct := fifo.distinct
  known := fun task member => known task (fifo.known task member)
  queue := (queue.map Prod.fst).trans fifo.queue
  order := order.trans fifo.order

theorem known_setStatus (task : TaskId) (change : BackgroundTaskStatus Result → BackgroundTaskStatus Result)
    (other : TaskId) (known : pool.tasks other ≠ none) : (pool.setStatus task change).tasks other ≠ none := by
  simp only [setStatus, Function.update_apply]
  split
  next same =>
    rw [← same]
    exact mt Option.map_eq_none_iff.mp known
  next => exact known

@[simp] theorem start_order (config : PoolConfig) (pool : Pool Result) : (pool.start config).order = pool.order := by
  unfold start
  split <;> rfl

theorem Fifo.submitted {accepted : List TaskId} {task : TaskId} {records : List RecordRequest}
    {status : BackgroundTaskStatus Result} (fifo : Fifo config before accepted) (fresh : before.tasks task = none)
    (tasks : after.tasks = Function.update before.tasks task (some status))
    (order : after.order = trimStatusHistory config.maxTrackedTasks (before.order ++ [task]))
    (queue : after.queue = before.queue ++ [(task, records)]) : Fifo config after (accepted ++ [task]) := by
  have new : task ∉ accepted := fun member => fifo.known task member fresh
  refine ⟨?_, ?_, ?_, ?_⟩
  · exact List.nodup_append.mpr ⟨fifo.distinct, List.nodup_singleton task, by
      intro old member other same
      rw [List.mem_singleton.mp same]
      rintro rfl
      exact new member⟩
  · intro other member
    rw [tasks, Function.update_apply]
    split
    · exact Option.some_ne_none _
    · rcases List.mem_append.mp member with old | newest
      · exact fifo.known other old
      · rename_i different
        exact absurd (List.mem_singleton.mp newest) different
  · rw [queue, List.map_append]
    exact List.suffix_append_self_iff.mpr fifo.queue
  · rw [order, fifo.order]
    exact trimStatusHistory_append config.maxTrackedTasks accepted task

theorem Fifo.step {accepted : List TaskId} {label : Label Result} (fifo : Fifo config before accepted)
    (stepped : (machine Result config).step before label = some after) : ∃ accepted, Fifo config after accepted := by
  cases transition_of_step stepped with
  | submitted task records queuedAt fresh => exact ⟨accepted ++ [task], fifo.submitted fresh rfl rfl rfl⟩
  | started => exact ⟨accepted, fifo.keeps (by simp) (fun _ known => by simpa using known) (by simp)⟩
  | taken _ _ _ _ _ _ _ head =>
    exact ⟨accepted, fifo.keeps rfl (known_setStatus _ _) (head ▸ List.suffix_cons _ _)⟩
  | forgotten _ _ _ _ _ _ _ head =>
    exact ⟨accepted, fifo.keeps rfl (fun _ known => known) (head ▸ List.suffix_cons _ _)⟩
  | succeeded | cancelled | failed | failedQuietly | notified =>
    exact ⟨accepted, fifo.keeps rfl (known_setStatus _ _) List.suffix_rfl⟩
  | stopped | quit => exact ⟨accepted, fifo.keeps rfl (fun _ known => known) List.suffix_rfl⟩

/-- The history still knows the oldest task of the queue exactly if it is long
enough for the whole queue. -/
theorem Fifo.head_tracked_iff {accepted : List TaskId} {task : TaskId} {records : List RecordRequest}
    {rest : List (TaskId × List RecordRequest)} (fifo : Fifo config pool accepted)
    (head : pool.queue = (task, records) :: rest) :
    task ∈ pool.order ↔ pool.queue.length ≤ config.maxTrackedTasks := by
  obtain ⟨older, split⟩ := fifo.queue
  rw [head, List.map_cons] at split
  have distinct := fifo.distinct
  rw [← split, List.append_cons, List.nodup_append] at distinct
  rw [fifo.order, trimStatusHistory_eq, ← split, head]
  simp only [List.length_append, List.length_cons, List.length_map]
  constructor
  · intro tracked
    by_contra long
    -- What trimming leaves then lies wholly behind the task.
    have behind : older.length + (rest.length + 1) - config.maxTrackedTasks =
        (older ++ [task]).length + (rest.length - config.maxTrackedTasks) := by
      rw [List.length_append, List.length_singleton]; omega
    rw [behind, List.append_cons older task (rest.map Prod.fst), ← List.drop_drop, List.drop_left] at tracked
    have newer := List.mem_of_mem_drop tracked
    exact distinct.2.2 task (List.mem_append_right _ (List.mem_singleton_self task)) task newer rfl
  · intro short
    have inside : older.length + (rest.length + 1) - config.maxTrackedTasks ≤ older.length := by omega
    rw [List.drop_append_of_le_length inside]
    exact List.mem_append_right _ List.mem_cons_self

theorem Fifo.tracked {accepted : List TaskId} (fifo : Fifo config pool accepted)
    (short : pool.queue.length ≤ config.maxTrackedTasks) : pool.queue.map Prod.fst <:+ pool.order := by
  have newest : pool.order <:+ accepted := by
    rw [fifo.order, trimStatusHistory_eq]
    exact List.drop_suffix _ _
  refine List.suffix_of_suffix_length_le fifo.queue newest ?_
  have inside := fifo.queue.length_le
  rw [List.length_map] at inside ⊢
  rw [fifo.order, trimStatusHistory_eq, List.length_drop]
  omega

/-! ## Live workers -/

/-- No worker loop has ended since the pool was last started. -/
def WorkersLive (config : PoolConfig) (pool : Pool Result) : Prop :=
  pool.running = true →
    pool.workers.length = config.workerCount ∧ ∀ worker ∈ pool.workers, worker ≠ .ended

/-- As long as the pool is not stopped its workers live, and the status of a
task is found when a worker takes the task off the queue. -/
structure StaysAlive (config : PoolConfig) (labels : List (Label Result)) : Prop where
  live : (machine Result config).Throughout .empty labels (WorkersLive config)
  found : (machine Result config).Every .empty labels fun _ before label _ =>
    ∀ worker startedAt task records, label = .dequeue worker startedAt →
      before.queue.head? = some (task, records) → (before.getTaskStatus task).isSome = true

/-- What ends no worker loop: a task is taken off a queue no longer than the
history, and neither the processor nor the failure callback is cancelled while
the pool is running. -/
def SparesWorkers (config : PoolConfig) (before : Pool Result) : Label Result → Prop
  | .dequeue _ _ => before.queue.length ≤ config.maxTrackedTasks
  | .finish _ outcome _ => outcome = .cancelled → before.running = false
  | .notified _ outcome _ => outcome = .cancelled → before.running = false
  | .start | .submit _ _ _ | .stop | .quit _ => True

def Remembers (config : PoolConfig) (pool : Pool Result) : Prop := ∃ accepted, Fifo config pool accepted

theorem remembers_step {label : Label Result} (remembers : Remembers config before)
    (stepped : (machine Result config).step before label = some after) : Remembers config after := by
  obtain ⟨accepted, fifo⟩ := remembers
  exact fifo.step stepped

theorem remembers_initial : Remembers config (.empty : Pool Result) := ⟨[], .initial⟩

theorem WorkersLive.set (live : WorkersLive config before) (running : after.running = before.running) {worker : Nat}
    {state : Worker} (workers : after.workers = before.workers.set worker state) (alive : state ≠ .ended) :
    WorkersLive config after := by
  intro runs
  obtain ⟨length, living⟩ := live (running ▸ runs)
  rw [workers]
  refine ⟨by rw [List.length_set, length], fun other member => ?_⟩
  rcases List.mem_or_eq_of_mem_set member with old | rfl
  · exact living other old
  · exact alive

theorem not_workersLive {worker : Nat} {state : Worker} (was : before.workers[worker]? = some state)
    (workers : after.workers = before.workers.set worker .ended) (running : after.running = true) :
    ¬ WorkersLive config after := by
  intro live
  have inside : worker < before.workers.length := (List.getElem?_eq_some_iff.mp was).1
  refine (live running).2 .ended ?_ rfl
  rw [workers]
  exact List.mem_set inside .ended

theorem workersLive_step {label : Label Result} (remembers : Remembers config before)
    (live : WorkersLive config before) (stepped : (machine Result config).step before label = some after) :
    WorkersLive config after ↔ SparesWorkers config before label := by
  obtain ⟨accepted, fifo⟩ := remembers
  cases transition_of_step stepped with
  | started again =>
    refine iff_of_true ?_ trivial
    unfold start
    split
    next => exact live
    next => exact fun _ => ⟨List.length_replicate, fun worker member => by
      rw [List.eq_of_mem_replicate member]; simp⟩
  | submitted => exact iff_of_true live trivial
  | taken worker _ task records queue _ waits head tracked =>
    exact iff_of_true (live.set rfl rfl (by simp)) ((fifo.head_tracked_iff head).mp tracked)
  | forgotten worker _ task records queue running waits head untracked =>
    exact iff_of_false (not_workersLive waits rfl running) (mt (fifo.head_tracked_iff head).mpr untracked)
  | succeeded | failed | failedQuietly =>
    exact iff_of_true (live.set rfl rfl (by simp)) (fun cancelled => by cases cancelled)
  | cancelled worker task records _ busy =>
    by_cases running : before.running = true
    · exact iff_of_false (not_workersLive busy rfl running) (by simp [SparesWorkers, running])
    · exact iff_of_true (fun runs => absurd runs running) (fun _ => by simpa using running)
  | notified worker task outcome _ calls =>
    by_cases cancelled : outcome = .cancelled
    · simp only [cancelled, ↓reduceIte]
      by_cases running : before.running = true
      · exact iff_of_false (not_workersLive calls rfl running) (by simp [SparesWorkers, running])
      · exact iff_of_true (fun runs => absurd runs running) (fun _ => by simpa using running)
    · simp only [cancelled, ↓reduceIte]
      exact iff_of_true (live.set rfl rfl (by simp)) (fun same => absurd same cancelled)
  | stopped => exact iff_of_true (fun running => by cases running) trivial
  | quit worker stopped => exact iff_of_true (fun running => by cases stopped.symm.trans running) trivial

/-- In every run of a pool its workers live until it is stopped exactly if no
step is one that ends a worker loop. -/
theorem stays_alive_iff (config : PoolConfig) (labels : List (Label Result)) :
    StaysAlive config labels ↔
      (machine Result config).Every .empty labels fun _ before label _ => SparesWorkers config before label := by
  have exactly : (machine Result config).Throughout .empty labels (WorkersLive config) ↔
      (machine Result config).Every .empty labels fun _ before label _ => SparesWorkers config before label :=
    Machine.throughout_iff_every (Remembers config) remembers_initial (fun running => by cases running)
      (fun _ _ _ => remembers_step) (fun _ _ _ => workersLive_step) labels
  constructor
  · exact fun alive => exactly.mp alive.live
  · intro every
    refine ⟨exactly.mpr every, every.mono ?_⟩
    rintro earlier before label after ran stepped spares worker startedAt task records rfl head
    obtain ⟨accepted, fifo⟩ := Machine.invariant_of_step (Remembers config) remembers_initial
      (fun _ _ _ => remembers_step) ran
    obtain ⟨rest, queue⟩ := List.head?_eq_some_iff.mp head
    have tracked := (fifo.head_tracked_iff queue).mpr spares
    have accepted := fifo.known task (fifo.queue.subset (by rw [queue]; exact List.mem_cons_self))
    rw [getTaskStatus, if_pos tracked]
    exact Option.isSome_iff_ne_none.mpr accepted

/-- A pool of one worker with the shortest history that `Settings` admits. -/
def shortHistory : PoolConfig := ⟨1, 10000, 10, false⟩

/-- Eleven tasks are submitted before the worker takes the first of them. -/
def elevenTasks : List (Label Unit) :=
  .start :: (List.range 11).map fun task => .submit task [] (january 9)

theorem forgotten_task_ends_worker :
    shortHistory.Admitted ∧ ¬ StaysAlive shortHistory (elevenTasks ++ [.dequeue 0 (january 9)]) := by
  refine ⟨⟨by decide, by decide, by decide⟩, fun alive => ?_⟩
  have ends : ((machine Unit shortHistory).run .empty (elevenTasks ++ [.dequeue 0 (january 9)])).any fun pool =>
      pool.running = true ∧ pool.workers = [.ended] := by decide +kernel
  obtain ⟨pool, ran, ends⟩ := (Option.any_eq_true _ _).mp ends
  obtain ⟨running, workers⟩ := of_decide_eq_true ends
  have living := (alive.live _ [] pool (by simp) ran running).2 .ended
  exact living (by rw [workers]; exact List.mem_singleton_self _) rfl

/-! ## Findable tasks -/

/-- Every accepted task is found by its id until it has ended. -/
def LiveTasksFound (pool : Pool Result) : Prop :=
  ∀ task status, pool.tasks task = some status → ¬ status.status.Terminal →
    pool.getTaskStatus task = some status

/-- Only tasks that have ended are forgotten. -/
structure ForgetsFinished (config : PoolConfig) (labels : List (Label Result)) : Prop where
  found : (machine Result config).Throughout .empty labels LiveTasksFound
  trims : (machine Result config).Every .empty labels fun _ before _ after =>
    ∀ task status, task ∈ before.order → task ∉ after.order → before.tasks task = some status →
      status.status.Terminal

/-- A task is submitted while the history has room, or its oldest task has ended. -/
def RoomInHistory (config : PoolConfig) (before : Pool Result) : Label Result → Prop
  | .submit _ _ _ => before.order.length < config.maxTrackedTasks ∨
      ∃ oldest status, before.order.head? = some oldest ∧ before.tasks oldest = some status ∧
        status.status.Terminal
  | .start | .dequeue _ _ | .finish _ _ _ | .notified _ _ _ | .stop | .quit _ => True

theorem liveTasksFound_iff :
    LiveTasksFound pool ↔ ∀ task status, pool.tasks task = some status → ¬ status.status.Terminal →
      task ∈ pool.order := by
  constructor
  · intro found task status present live
    have same := found task status present live
    unfold getTaskStatus at same
    by_contra untracked
    rw [if_neg untracked] at same
    cases same
  · intro tracked task status present live
    rw [getTaskStatus, if_pos (tracked task status present live), present]

theorem LiveTasksFound.changed (found : LiveTasksFound before) (order : after.order = before.order) {task : TaskId}
    {change : BackgroundTaskStatus Result → BackgroundTaskStatus Result}
    (tasks : after.tasks = (before.setStatus task change).tasks)
    (harmless : task ∈ before.order ∨
      ∀ old, old.status.Terminal → (change old).status.Terminal) : LiveTasksFound after := by
  rw [liveTasksFound_iff] at found ⊢
  intro other status present live
  rw [order]
  rw [tasks] at present
  simp only [setStatus, Function.update_apply] at present
  split at present
  next same =>
    obtain ⟨old, known, rfl⟩ := Option.map_eq_some_iff.mp present
    rw [same]
    rcases harmless with tracked | keeps
    · exact tracked
    · exact found task old known (mt (keeps old) live)
  next => exact found other status present live

theorem Fifo.history {accepted : List TaskId} (fifo : Fifo config pool accepted) :
    pool.order.length ≤ config.maxTrackedTasks ∧ pool.order.Nodup ∧ ∀ task ∈ pool.order, pool.tasks task ≠ none := by
  have newest := List.drop_sublist (accepted.length - config.maxTrackedTasks) accepted
  rw [fifo.order, trimStatusHistory_eq]
  refine ⟨?_, fifo.distinct.sublist newest, fun task member => fifo.known task (newest.subset member)⟩
  rw [List.length_drop]
  omega

/-- Submitting forgets no live task exactly if there is room, or the task that
has to go has ended. -/
theorem submitted_found_iff {accepted : List TaskId} {task : TaskId} {records : List RecordRequest}
    {queuedAt : DateTime}
    (fifo : Fifo config before accepted) (found : LiveTasksFound before) (fresh : before.tasks task = none)
    (order : after.order = trimStatusHistory config.maxTrackedTasks (before.order ++ [task]))
    (tasks : after.tasks = Function.update before.tasks task
      (some { taskId := task, status := .queued, batchSize := records.length, queuedAt })) :
    LiveTasksFound after ↔ RoomInHistory config before (.submit task records queuedAt) := by
  obtain ⟨short, distinct, known⟩ := fifo.history
  have untracked : task ∉ before.order := fun member => known task member fresh
  rw [liveTasksFound_iff] at found ⊢
  rw [order, tasks]
  simp only [RoomInHistory, Function.update_apply]
  rcases trimStatusHistory_cases task short with
    ⟨room, added⟩ | ⟨oldest, rest, split, full, shifted⟩ | ⟨split, none, kept⟩
  · rw [added]
    refine iff_of_true (fun other status present live => ?_) (.inl room)
    split at present
    next same => exact List.mem_append_right _ (List.mem_singleton.mpr same)
    next => exact List.mem_append_left _ (found other status present live)
  · rw [shifted]
    rw [split] at distinct untracked found known
    have oldestElsewhere : oldest ∉ rest ++ [task] := by
      intro member
      rcases List.mem_append.mp member with again | new
      · exact (List.nodup_cons.mp distinct).1 again
      · rw [List.mem_singleton.mp new] at untracked
        exact untracked List.mem_cons_self
    have different : oldest ≠ task := fun same => oldestElsewhere (by simp [same])
    obtain ⟨state, present⟩ := Option.ne_none_iff_exists'.mp (known oldest List.mem_cons_self)
    constructor
    · intro foundAfter
      refine .inr ⟨oldest, state, by rw [split, List.head?_cons], present, ?_⟩
      by_contra live
      exact oldestElsewhere (foundAfter oldest state (by rw [if_neg different, present]) live)
    · rintro (room | ⟨first, status, head, same, ended⟩) other otherStatus found' live
      · exact absurd full room.ne
      · rw [split, List.head?_cons, Option.some.injEq] at head
        split at found'
        next same => exact List.mem_append_right _ (List.mem_singleton.mpr same)
        next =>
          rcases List.mem_cons.mp (found other otherStatus found' live) with isOldest | later
          -- Only the oldest task goes, and it has ended.
          · rw [isOldest, head, same] at found'
            cases found'
            exact absurd ended live
          · exact List.mem_append_left _ later
  · rw [kept, split]
    refine iff_of_false (fun foundAfter => ?_) ?_
    · have gone := foundAfter task _ (if_pos rfl) (by simp [TaskState.Terminal])
      cases gone
    · rw [none]
      rintro (room | ⟨oldest, status, head, -⟩)
      · cases room
      · cases head

theorem liveTasksFound_step {label : Label Result} (remembers : Remembers config before)
    (found : LiveTasksFound before) (stepped : (machine Result config).step before label = some after) :
    LiveTasksFound after ↔ RoomInHistory config before label := by
  obtain ⟨accepted, fifo⟩ := remembers
  cases transition_of_step stepped with
  | submitted task records queuedAt fresh => exact submitted_found_iff fifo found fresh rfl rfl
  | started =>
    refine iff_of_true ?_ trivial
    rw [liveTasksFound_iff] at found ⊢
    simpa using found
  | forgotten | stopped | quit => exact iff_of_true found trivial
  | taken _ _ _ _ _ _ _ _ tracked => exact iff_of_true (found.changed rfl rfl (.inl tracked)) trivial
  | succeeded | cancelled | failed | failedQuietly =>
    exact iff_of_true (found.changed rfl rfl (.inr fun _ _ => by simp [TaskState.Terminal])) trivial
  | notified => exact iff_of_true (found.changed rfl rfl (.inr fun _ ended => ended)) trivial

theorem trims_finished {label : Label Result}
    (stepped : (machine Result config).step before label = some after) (found : LiveTasksFound after)
    {task : TaskId} {status : BackgroundTaskStatus Result} (tracked : task ∈ before.order) (gone : task ∉ after.order)
    (present : before.tasks task = some status) : status.status.Terminal := by
  rw [liveTasksFound_iff] at found
  cases transition_of_step stepped with
  | submitted new records queuedAt fresh =>
    by_contra live
    have different : task ≠ new := by
      rintro rfl
      cases present.symm.trans fresh
    exact gone (found task status ((Function.update_of_ne different _ _).trans present) live)
  | started => exact absurd tracked (by simpa using gone)
  | taken | forgotten | succeeded | cancelled | failed | failedQuietly | notified | stopped | quit =>
    exact absurd tracked gone

/-- In every run of a pool the history forgets only tasks that have ended
exactly if each task is submitted while there is room, or the oldest has ended. -/
theorem forgets_finished_iff (config : PoolConfig) (labels : List (Label Result)) :
    ForgetsFinished config labels ↔
      (machine Result config).Every .empty labels fun _ before label _ => RoomInHistory config before label := by
  have exactly : (machine Result config).Throughout .empty labels LiveTasksFound ↔
      (machine Result config).Every .empty labels fun _ before label _ => RoomInHistory config before label :=
    Machine.throughout_iff_every (Remembers config) remembers_initial (fun _ _ present => by cases present)
      (fun _ _ _ => remembers_step) (fun _ _ _ => liveTasksFound_step) labels
  constructor
  · exact fun forgets => exactly.mp forgets.found
  · intro every
    have found := exactly.mpr every
    refine ⟨found, ?_⟩
    intro earlier label later before after split ran stepped task status tracked gone present
    have foundAfter := found (earlier ++ [label]) later after (by simp [split])
      (Machine.run_concat.mpr ⟨before, ran, stepped⟩)
    exact trims_finished stepped foundAfter tracked gone present

/-- The first of the eleven tasks is forgotten while it waits in the queue. -/
theorem queued_task_forgotten : shortHistory.Admitted ∧ ¬ ForgetsFinished shortHistory elevenTasks := by
  refine ⟨⟨by decide, by decide, by decide⟩, fun forgets => ?_⟩
  have ends : ((machine Unit shortHistory).run .empty elevenTasks).any fun pool =>
      (pool.tasks 0).map (·.status) = some .queued ∧ 0 ∉ pool.order := by decide +kernel
  obtain ⟨pool, ran, ends⟩ := (Option.any_eq_true _ _).mp ends
  obtain ⟨queued, untracked⟩ := of_decide_eq_true ends
  obtain ⟨status, present, waits⟩ := Option.map_eq_some_iff.mp queued
  have tracked := liveTasksFound_iff.mp (forgets.found elevenTasks [] pool (by simp) ran) 0 status present
    (by simp [TaskState.Terminal, waits])
  exact untracked tracked

end Pool

end DataPipeline.Ingestor
