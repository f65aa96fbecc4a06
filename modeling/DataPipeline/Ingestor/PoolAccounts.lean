import DataPipeline.Ingestor.WorkerPool

/-! Where every task of the worker pool is: in the queue, with a worker, or ended.

A worker that does not find the status of its task ends and drops the task, so
a task that is neither waiting nor held nor ended keeps the status it was queued with.
-/

set_option autoImplicit false

namespace DataPipeline.Ingestor

open Execution Calendar

/-- The task that a worker has taken and not yet put down. -/
def Worker.held : Worker → Option TaskId
  | .processing task _ | .notifying task => some task
  | .waiting | .ended => none

section

variable {Result : Type}

/-- The task has ended, and its status says when. -/
def BackgroundTaskStatus.Ended (status : BackgroundTaskStatus Result) : Prop :=
  status.status.Terminal ∧ status.finishedAt.isSome = true

/-- What the status of a task says while a worker is in the given state with it. -/
inductive Worker.Fits (task : TaskId) (status : BackgroundTaskStatus Result) : Worker → Prop where
  | processing (records : List RecordRequest) (running : status.status = .running)
      (unfinished : status.finishedAt = none) : Fits task status (.processing task records)
  | notifying (failed : status.status = .failed) (unfinished : status.finishedAt = none) :
      Fits task status (.notifying task)
  | idle (state : Worker) (empty : state.held = none) (ended : status.Ended) : Fits task status state

theorem Worker.Fits.held_eq {task other : TaskId} {status : BackgroundTaskStatus Result} {state : Worker}
    (fits : state.Fits task status) (held : state.held = some other) : other = task := by
  cases fits with
  | processing | notifying => exact (Option.some.inj held).symm
  | idle _ empty => cases empty.symm.trans held

theorem Worker.Fits.unfinished {task other : TaskId} {status : BackgroundTaskStatus Result} {state : Worker}
    (fits : state.Fits task status) (held : state.held = some other) : status.finishedAt = none := by
  cases fits with
  | processing _ _ unfinished | notifying _ unfinished => exact unfinished
  | idle _ empty => cases empty.symm.trans held

theorem BackgroundTaskStatus.Ended.not_queued {status : BackgroundTaskStatus Result} (ended : status.Ended) :
    status.status ≠ .queued := by
  intro queued
  rcases ended.1 with succeeded | failed | cancelled
  · cases queued.symm.trans succeeded
  · cases queued.symm.trans failed
  · cases queued.symm.trans cancelled

theorem Worker.Fits.not_queued {task : TaskId} {status : BackgroundTaskStatus Result} {state : Worker}
    (fits : state.Fits task status) : status.status ≠ .queued := by
  intro queued
  cases fits with
  | processing _ running => cases queued.symm.trans running
  | notifying failed => cases queued.symm.trans failed
  | idle _ _ ended => exact ended.not_queued queued

end

namespace Pool

variable {Result : Type}

def waiting (pool : Pool Result) : List TaskId := pool.queue.map Prod.fst

def HeldBy (pool : Pool Result) (task : TaskId) (worker : Nat) : Prop :=
  pool.workers[worker]?.bind Worker.held = some task

/-- The status of every task goes with where the task is. -/
structure Accounted (pool : Pool Result) : Prop where
  distinct : pool.waiting.Nodup
  queued : ∀ task ∈ pool.waiting, ∃ status, pool.tasks task = some status ∧ status.status = .queued ∧
    status.finishedAt = none
  held : ∀ (worker : Nat) (state : Worker) (task : TaskId), pool.workers[worker]? = some state → state.held = some task →
    ∃ status, pool.tasks task = some status ∧ state.Fits task status
  single : ∀ worker other task, pool.HeldBy task worker → pool.HeldBy task other → worker = other
  rest : ∀ task status, pool.tasks task = some status →
    status.status = .queued ∨ (∃ worker, pool.HeldBy task worker) ∨ status.Ended

variable {before after pool : Pool Result} {task other : TaskId} {worker slot : Nat} {state : Worker}
  {status : BackgroundTaskStatus Result}

/-! ## What is held -/

theorem heldBy_iff :
    pool.HeldBy task worker ↔ ∃ state : Worker, pool.workers[worker]? = some state ∧ state.held = some task :=
  Option.bind_eq_some_iff

theorem heldBy_set (inside : slot < before.workers.length) (workers : after.workers = before.workers.set slot state) :
    after.HeldBy task worker ↔ if slot = worker then state.held = some task else before.HeldBy task worker := by
  unfold HeldBy
  rw [workers, List.getElem?_set]
  split
  next => rw [Option.bind_some]
  next => rfl

theorem setStatus_tasks (pool : Pool Result) (task other : TaskId)
    (change : BackgroundTaskStatus Result → BackgroundTaskStatus Result) :
    (pool.setStatus task change).tasks other =
      if other = task then (pool.tasks task).map change else pool.tasks other :=
  Function.update_apply ..

theorem Accounted.initial : Accounted (.empty : Pool Result) where
  distinct := List.nodup_nil
  queued _ member := by cases member
  held _ _ _ found := by cases found
  single _ _ _ held := by cases held
  rest _ _ found := by cases found

/-- The task that a worker holds has a status that fits the worker's state. -/
theorem Accounted.fits (accounted : Accounted pool) (held : pool.HeldBy task worker) :
    ∃ (state : Worker) (status : BackgroundTaskStatus Result),
      pool.tasks task = some status ∧ state.held = some task ∧ state.Fits task status := by
  obtain ⟨state, found, holds⟩ := heldBy_iff.mp held
  obtain ⟨status, known, fits⟩ := accounted.held worker state task found holds
  exact ⟨state, status, known, holds, fits⟩

theorem Accounted.not_held (accounted : Accounted pool) (waits : task ∈ pool.waiting) : ¬ pool.HeldBy task worker := by
  intro held
  obtain ⟨status, found, queued, -⟩ := accounted.queued task waits
  obtain ⟨state, same, foundToo, -, fits⟩ := accounted.fits held
  cases found.symm.trans foundToo
  exact fits.not_queued queued

theorem Accounted.held_unfinished (accounted : Accounted pool) (held : pool.HeldBy task worker)
    (found : pool.tasks task = some status) : status.finishedAt = none := by
  obtain ⟨state, same, foundToo, holds, fits⟩ := accounted.fits held
  cases found.symm.trans foundToo
  exact fits.unfinished holds

theorem Accounted.waiting_unfinished (accounted : Accounted pool) (waits : task ∈ pool.waiting)
    (found : pool.tasks task = some status) : status.finishedAt = none := by
  obtain ⟨same, foundToo, -, unfinished⟩ := accounted.queued task waits
  cases found.symm.trans foundToo
  exact unfinished

theorem not_ended_of_unfinished (unfinished : status.finishedAt = none) : ¬ status.Ended := by
  rintro ⟨-, finished⟩
  rw [unfinished] at finished
  cases finished

/-! ## What keeps the accounts -/

theorem Accounted.idle (accounted : Accounted before) (tasks : after.tasks = before.tasks)
    (queue : after.waiting.Sublist before.waiting)
    (workers : ∀ worker task, after.HeldBy task worker ↔ before.HeldBy task worker)
    (states : ∀ (worker : Nat) (state : Worker) (task : TaskId),
      after.workers[worker]? = some state → state.held = some task → before.workers[worker]? = some state) : Accounted after where
  distinct := accounted.distinct.sublist queue
  queued task waits := by
    rw [tasks]
    exact accounted.queued task (queue.subset waits)
  held worker state task found holds := by
    rw [tasks]
    exact accounted.held worker state task (states worker state task found holds) holds
  single worker other task first second :=
    accounted.single worker other task ((workers worker task).mp first) ((workers other task).mp second)
  rest task status found := by
    rw [tasks] at found
    rcases accounted.rest task status found with queued | ⟨worker, held⟩ | ended
    · exact .inl queued
    · exact .inr (.inl ⟨worker, (workers worker task).mpr held⟩)
    · exact .inr (.inr ended)

theorem Accounted.dropped (accounted : Accounted before) (tasks : after.tasks = before.tasks)
    (queue : after.waiting.Sublist before.waiting) (was : before.workers[slot]? = some .waiting)
    (workers : after.workers = before.workers.set slot .ended) : Accounted after := by
  have inside : slot < before.workers.length := (List.getElem?_eq_some_iff.mp was).1
  refine accounted.idle tasks queue (fun worker task => ?_) (fun worker state task found holds => ?_)
  · rw [heldBy_set inside workers]
    split
    next same =>
      rw [heldBy_iff, ← same, was]
      simp [Worker.held]
    next => rfl
  · rw [workers, List.getElem?_set] at found
    split at found
    next =>
      cases found
      cases holds
    next => exact found

theorem Accounted.grown (accounted : Accounted before) (count : Nat) (tasks : after.tasks = before.tasks)
    (queue : after.queue = before.queue)
    (workers : after.workers = before.workers ++ List.replicate count .waiting) : Accounted after := by
  have states : ∀ (worker : Nat) (state : Worker) (task : TaskId), state.held = some task →
      (after.workers[worker]? = some state ↔ before.workers[worker]? = some state) := by
    intro worker state task holds
    rw [workers, List.getElem?_append]
    split
    next => rfl
    next outside =>
      rw [List.getElem?_eq_none (Nat.le_of_not_lt outside), List.getElem?_replicate]
      refine iff_of_false (fun found => ?_) (Option.some_ne_none _).symm
      rw [Option.ite_none_right_eq_some] at found
      cases found.2
      cases holds
  refine accounted.idle tasks (by rw [waiting, queue, waiting]) (fun worker task => ?_)
    (fun worker state task found holds => (states worker state task holds).mp found)
  rw [heldBy_iff, heldBy_iff]
  exact exists_congr fun state => and_congr_left fun holds => states worker state task holds

theorem Accounted.submitted (accounted : Accounted before) (fresh : before.tasks task = none)
    (tasks : after.tasks = Function.update before.tasks task (some status)) (queued : status.status = .queued)
    (unfinished : status.finishedAt = none) (queue : after.waiting = before.waiting ++ [task])
    (workers : after.workers = before.workers) : Accounted after := by
  have known : ∀ other status, before.tasks other = some status → other ≠ task := by
    rintro other status found rfl
    cases found.symm.trans fresh
  have holds : ∀ worker other, after.HeldBy other worker ↔ before.HeldBy other worker := by
    intro worker other
    rw [HeldBy, workers, HeldBy]
  constructor
  · rw [queue]
    refine List.nodup_append.mpr ⟨accounted.distinct, List.nodup_singleton task, ?_⟩
    intro other waits new member
    obtain ⟨status, found, -⟩ := accounted.queued other waits
    rw [List.mem_singleton.mp member]
    exact known other status found
  · intro other waits
    rw [queue] at waits
    rw [tasks]
    rcases List.mem_append.mp waits with old | new
    · obtain ⟨status, found, queued⟩ := accounted.queued other old
      exact ⟨status, by rw [Function.update_of_ne (known other status found), found], queued⟩
    · rw [List.mem_singleton.mp new, Function.update_self]
      exact ⟨status, rfl, queued, unfinished⟩
  · intro worker state other found held
    rw [workers] at found
    rw [tasks]
    obtain ⟨status, present, fits⟩ := accounted.held worker state other found held
    exact ⟨status, by rw [Function.update_of_ne (known other status present), present], fits⟩
  · intro worker rival other first second
    exact accounted.single worker rival other ((holds worker other).mp first) ((holds rival other).mp second)
  · intro other status found
    rw [tasks, Function.update_apply] at found
    split at found
    next =>
      cases found
      exact .inl queued
    next =>
      rcases accounted.rest other status found with waits | ⟨worker, held⟩ | ended
      · exact .inl waits
      · exact .inr (.inl ⟨worker, (holds worker other).mpr held⟩)
      · exact .inr (.inr ended)

/-- A worker with nothing else in hand goes on with a task that no other worker has. -/
theorem Accounted.moved (accounted : Accounted before) (inside : slot < before.workers.length)
    (own : ∀ other, before.HeldBy other slot → other = task)
    (alone : ∀ worker, before.HeldBy task worker → worker = slot)
    (tasks : after.tasks = Function.update before.tasks task (some status))
    (workers : after.workers = before.workers.set slot state) (fits : state.Fits task status)
    (queue : after.waiting.Sublist before.waiting) (gone : task ∉ after.waiting) : Accounted after := by
  have elsewhere : ∀ worker other, slot ≠ worker → before.HeldBy other worker → other ≠ task := by
    rintro worker other different held rfl
    exact different (alone worker held).symm
  constructor
  · exact accounted.distinct.sublist queue
  · intro other waits
    have different : other ≠ task := fun same => gone (same ▸ waits)
    rw [tasks, Function.update_of_ne different]
    exact accounted.queued other (queue.subset waits)
  · intro worker found other present holds
    rw [tasks]
    rw [workers, List.getElem?_set] at present
    split at present
    next =>
      cases present
      rw [fits.held_eq holds, Function.update_self]
      exact ⟨status, rfl, fits⟩
    next different =>
      have held := heldBy_iff.mpr ⟨found, present, holds⟩
      rw [Function.update_of_ne (elsewhere worker other different held)]
      exact accounted.held worker found other present holds
  · intro worker rival other first second
    rw [heldBy_set inside workers] at first second
    split at first
    next same =>
      split at second
      next sameToo => rw [← same, ← sameToo]
      next different => exact absurd (fits.held_eq first) (elsewhere rival other different second)
    next different =>
      split at second
      next => exact absurd (fits.held_eq second) (elsewhere worker other different first)
      next => exact accounted.single worker rival other first second
  · intro other found present
    rw [tasks, Function.update_apply] at present
    split at present
    next same =>
      cases present
      -- The worker holds the task still, or has ended it.
      cases fits with
      | processing | notifying =>
        refine .inr (.inl ⟨slot, (heldBy_set inside workers).mpr ?_⟩)
        rw [if_pos rfl, same]
        rfl
      | idle _ _ ended => exact .inr (.inr ended)
    next different =>
      rcases accounted.rest other found present with waits | ⟨worker, held⟩ | ended
      · exact .inl waits
      · refine .inr (.inl ⟨worker, (heldBy_set inside workers).mpr ?_⟩)
        split
        next same =>
          subst same
          exact absurd (own other held) different
        next => exact held
      · exact .inr (.inr ended)

/-! ## A worker goes on with its task -/

/-- A worker that holds `task` comes to `state`, and nothing else of the pool
changes that other parties see. -/
structure Continues (before after : Pool Result) (worker : Nat) (task : TaskId) (state : Worker) : Prop where
  held : before.HeldBy task worker
  change : ∃ change : BackgroundTaskStatus Result → BackgroundTaskStatus Result,
    after.tasks = Function.update before.tasks task ((before.tasks task).map change) ∧
      ∀ (was : Worker) (status : BackgroundTaskStatus Result), before.workers[worker]? = some was →
        was.Fits task status → state.Fits task (change status)
  workers : after.workers = before.workers.set worker state
  queue : after.queue = before.queue
  order : after.order = before.order
  running : after.running = before.running

theorem HeldBy.inside (held : pool.HeldBy task worker) : worker < pool.workers.length := by
  obtain ⟨state, found, -⟩ := heldBy_iff.mp held
  exact (List.getElem?_eq_some_iff.mp found).1

theorem HeldBy.unique (held : pool.HeldBy task worker) (again : pool.HeldBy other worker) : other = task :=
  Option.some.inj (Eq.trans (Eq.symm again) held)

theorem Accounted.continued (accounted : Accounted before) (continues : Continues before after worker task state) :
    ∃ old status, before.tasks task = some old ∧ old.finishedAt = none ∧
      after.tasks = Function.update before.tasks task (some status) ∧ state.Fits task status := by
  obtain ⟨was, found, holds⟩ := heldBy_iff.mp continues.held
  obtain ⟨old, known, fits⟩ := accounted.held worker was task found holds
  obtain ⟨change, tasks, keeps⟩ := continues.change
  rw [known, Option.map_some] at tasks
  exact ⟨old, change old, known, fits.unfinished holds, tasks, keeps was old found fits⟩

theorem Accounted.continues (accounted : Accounted before) (continues : Continues before after worker task state) :
    Accounted after := by
  obtain ⟨old, status, -, -, tasks, fits⟩ := accounted.continued continues
  have same : after.waiting = before.waiting := by rw [waiting, continues.queue, waiting]
  refine accounted.moved continues.held.inside (fun other again => continues.held.unique again)
    (fun rival held => accounted.single rival worker task held continues.held) tasks continues.workers
    fits (same ▸ .refl _) ?_
  rw [same]
  exact fun waits => accounted.not_held waits continues.held

theorem fits_idle (empty : state.held = none) (terminal : status.status.Terminal)
    (finished : status.finishedAt.isSome = true) : state.Fits task status :=
  .idle state empty ⟨terminal, finished⟩

theorem continues_of_finish {config : PoolConfig} {outcome : Outcome Result String} {finishedAt : DateTime}
    (stepped : before.finish config worker outcome finishedAt = some after) :
    ∃ task state, Continues before after worker task state ∧ (outcome = .cancelled → state = .ended) := by
  unfold finish at stepped
  split at stepped
  next task records busy =>
    have held : before.HeldBy task worker := heldBy_iff.mpr ⟨_, busy, rfl⟩
    have unfinished : ∀ (was : Worker) (status : BackgroundTaskStatus Result), before.workers[worker]? = some was →
        was.Fits task status → status.finishedAt = none := by
      intro was status found fits
      cases busy.symm.trans found
      exact fits.unfinished rfl
    cases outcome with
    | returned result =>
      cases stepped
      exact ⟨task, .waiting, ⟨held, ⟨_, rfl, fun _ _ _ _ => fits_idle rfl (.inl rfl) rfl⟩, rfl, rfl, rfl, rfl⟩, nofun⟩
    | cancelled =>
      cases stepped
      exact ⟨task, .ended, ⟨held, ⟨_, rfl, fun _ _ _ _ => fits_idle rfl (.inr (.inr rfl)) rfl⟩, rfl, rfl, rfl, rfl⟩,
        fun _ => rfl⟩
    | raised error =>
      simp only at stepped
      split at stepped
      next =>
        cases stepped
        exact ⟨task, .notifying task, ⟨held, ⟨_, rfl, fun was status found fits =>
          .notifying rfl (unfinished was status found fits)⟩, rfl, rfl, rfl, rfl⟩, nofun⟩
      next =>
        cases stepped
        exact ⟨task, .waiting, ⟨held, ⟨_, rfl, fun _ _ _ _ => fits_idle rfl (.inr (.inl rfl)) rfl⟩, rfl, rfl, rfl,
          rfl⟩, nofun⟩
  next => cases stepped

theorem continues_of_notified {outcome : Outcome Unit String} {finishedAt : DateTime}
    (stepped : before.notified worker outcome finishedAt = some after) :
    ∃ task state, Continues before after worker task state ∧ (outcome = .cancelled → state = .ended) := by
  unfold notified at stepped
  split at stepped
  next task calls =>
    cases stepped
    refine ⟨task, if outcome = .cancelled then .ended else .waiting, ⟨heldBy_iff.mpr ⟨_, calls, rfl⟩,
      ⟨_, rfl, ?_⟩, rfl, rfl, rfl, rfl⟩, fun cancelled => by rw [if_pos cancelled]⟩
    intro was status found fits
    cases calls.symm.trans found
    have empty : (if outcome = .cancelled then Worker.ended else .waiting).held = none := by split <;> rfl
    -- The status has said that the task failed since the callback was called.
    cases fits with
    | notifying failed => exact fits_idle empty (.inr (.inl failed)) rfl
    | idle _ holds => cases holds
  next => cases stepped

end Pool

end DataPipeline.Ingestor
