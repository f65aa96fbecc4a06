import DataPipeline.Ingestor.PoolLifecycle

/-! What `stop` leaves behind.

The call cancels the loops and waits for them. A loop ends the task that it
holds, but nobody takes what is still in the queue.
-/

set_option autoImplicit false

namespace DataPipeline.Ingestor

open Execution Calendar

namespace BackgroundWorkerPool

variable {Result : Type}

/-- However the pool goes on while `stop`, called at this moment, waits for its
loops: when they have ended, so has every task that was accepted before. -/
def LeavesNoLimbo (config : PoolConfig) (moment : BackgroundWorkerPool Result) : Prop :=
  ∀ labels final, (machine Result config).run moment.stop labels = some final →
    AllEnded final.toPool moment.awaited →
    ∀ task, moment.tasks task ≠ none → ∃ status, final.tasks task = some status ∧ status.Ended

/-- Every accepted task has ended, or a loop that `stop` cancels and waits for has it in hand. -/
def InHand (moment : BackgroundWorkerPool Result) : Prop :=
  ∀ task status, moment.tasks task = some status →
    status.Ended ∨ ∃ worker ∈ moment.awaited, moment.HeldBy task worker

variable {config : PoolConfig} {before after pool moment : BackgroundWorkerPool Result} {task : TaskId}
  {loops : List Nat}

/-! ## Tasks that end with the loops -/

def Covered (pool : Pool Result) (loops : List Nat) (task : TaskId) : Prop :=
  (∃ status, pool.tasks task = some status ∧ status.Ended) ∨ ∃ worker ∈ loops, pool.HeldBy task worker

theorem Covered.continues {next : Pool Result} {worker : Nat} {other : TaskId} {state : Worker}
    (covered : Covered before.toPool loops task) (accounted : before.toPool.Accounted)
    (continues : Pool.Continues before.toPool next worker other state) : Covered next loops task := by
  obtain ⟨old, status, present, unfinished, tasks, fits⟩ := accounted.continued continues
  have holds : ∀ rival, next.HeldBy task rival ↔
      if worker = rival then state.held = some task else before.HeldBy task rival :=
    fun rival => Pool.heldBy_set continues.held.inside continues.workers
  rcases covered with ⟨old, found, ended⟩ | ⟨loop, member, held⟩
  · refine .inl ⟨old, ?_, ended⟩
    rw [tasks, Function.update_of_ne, found]
    rintro rfl
    cases found.symm.trans present
    exact Pool.not_ended_of_unfinished unfinished ended
  · by_cases same : worker = loop
    · subst same
      cases continues.held.unique held
      -- The task is still with the loop, unless it has ended.
      cases fits with
      | processing | notifying => exact .inr ⟨worker, member, by rw [holds, if_pos rfl]; rfl⟩
      | idle _ _ ended => exact .inl ⟨status, by rw [tasks, Function.update_self], ended⟩
    · exact .inr ⟨loop, member, by rw [holds, if_neg same]; exact held⟩

theorem Covered.keeps {next : Pool Result} (covered : Covered before.toPool loops task)
    (tasks : next.tasks task = before.tasks task)
    (held : ∀ worker, before.HeldBy task worker → next.HeldBy task worker) : Covered next loops task := by
  rcases covered with ⟨status, found, ended⟩ | ⟨loop, member, holds⟩
  · exact .inl ⟨status, by rw [tasks, found], ended⟩
  · exact .inr ⟨loop, member, held loop holds⟩

theorem held_of_waiting {next : Pool Result} {slot worker : Nat} {state : Worker}
    (waits : before.workers[slot]? = some .waiting) (workers : next.workers = before.workers.set slot state)
    (held : before.HeldBy task worker) : next.HeldBy task worker := by
  have different : slot ≠ worker := by
    rintro rfl
    obtain ⟨found, present, holds⟩ := Pool.heldBy_iff.mp held
    cases waits.symm.trans present
    cases holds
  rw [Pool.HeldBy, workers, List.getElem?_set_ne different]
  exact held

theorem Covered.known (covered : Covered pool.toPool loops task) (accounted : pool.toPool.Accounted) :
    pool.tasks task ≠ none := by
  rcases covered with ⟨status, found, -⟩ | ⟨loop, -, held⟩
  · rw [found]
    exact Option.some_ne_none status
  · obtain ⟨state, status, found, -⟩ := accounted.fits held
    rw [found]
    exact Option.some_ne_none status

theorem Covered.not_waiting (covered : Covered pool.toPool loops task) (accounted : pool.toPool.Accounted) :
    task ∉ pool.waiting := by
  intro waits
  rcases covered with ⟨status, found, ended⟩ | ⟨loop, -, held⟩
  · exact Pool.not_ended_of_unfinished (accounted.waiting_unfinished waits found) ended
  · exact accounted.not_held waits held

theorem covered_step {label : Label Result} (accounted : before.toPool.Accounted)
    (covered : Covered before.toPool loops task)
    (stepped : (machine Result config).step before label = some after) : Covered after.toPool loops task := by
  cases transition_of_step stepped with
  | restarted | rejected | swallowed | stopReturned => exact covered
  | started stopped =>
    have same : before.start config = _ := if_neg (by rw [stopped]; exact Bool.false_ne_true)
    rw [same]
    refine covered.keeps rfl fun worker held => ?_
    rw [Pool.HeldBy, List.getElem?_append_left held.inside]
    exact held
  | stopCalled =>
    refine covered.keeps (by rw [stop_tasks]) fun worker held => ?_
    rw [Pool.HeldBy, stop_workers]
    exact held
  | submitted other records queuedAt _ _ fresh =>
    have different : task ≠ other := by
      rintro rfl
      exact covered.known accounted fresh
    exact covered.keeps (accepted_tasks_of_ne different) fun _ held => held
  | taken worker startedAt other records queue waits head =>
    have different : task ≠ other := by
      rintro rfl
      exact covered.not_waiting accounted (by rw [Pool.waiting, head, List.map_cons]; exact List.mem_cons_self)
    exact covered.keeps (Function.update_of_ne different _ _) fun _ => held_of_waiting waits rfl
  | forgotten worker _ other records queue waits => exact covered.keeps rfl fun _ => held_of_waiting waits rfl
  | finished worker _ _ other state next continues => exact covered.continues accounted continues
  | notified worker _ _ other state next continues => exact covered.continues accounted continues
  | quit worker waits => exact covered.keeps rfl fun _ => held_of_waiting waits rfl

theorem Covered.ended (covered : Covered pool.toPool loops task) (ended : AllEnded pool.toPool loops) :
    ∃ status, pool.tasks task = some status ∧ status.Ended := by
  rcases covered with found | ⟨loop, member, held⟩
  · exact found
  · obtain ⟨state, found, holds⟩ := Pool.heldBy_iff.mp held
    cases (ended loop member).symm.trans found
    cases holds

/-! ## Loops that end -/

/-- A loop that is cancelled can end at once, and takes only its own task with it. -/
theorem ends (config : PoolConfig) {worker : Nat} {state : Worker} (found : pool.workers[worker]? = some state)
    (cancelled : state = .waiting → pool.cancelling worker = true) :
    ∃ labels next, (machine Result config).run pool labels = some next ∧
      next.workers = pool.workers.set worker .ended ∧
      (∀ other, other ≠ worker → next.cancelling other = pool.cancelling other) ∧
      ∀ task, ¬ pool.HeldBy task worker → next.tasks task = pool.tasks task := by
  have only : ∀ task, state.held = some task → ∀ other, ¬ pool.HeldBy other worker → other ≠ task := by
    rintro task holds other free rfl
    exact free (Pool.heldBy_iff.mpr ⟨state, found, holds⟩)
  have frees : ∀ other, other ≠ worker → reached pool.cancelling worker other = pool.cancelling other :=
    fun other different => Function.update_of_ne different _ _
  cases state with
  | ended =>
    obtain ⟨inside, value⟩ := List.getElem?_eq_some_iff.mp found
    exact ⟨[], pool, rfl, by rw [← value, List.set_getElem_self], fun _ _ => rfl, fun _ _ => rfl⟩
  | waiting =>
    refine ⟨[.quit worker], { pool with
      toPool := pool.setWorker worker .ended, cancelling := reached pool.cancelling worker }, ?_, rfl, frees,
      fun _ _ => rfl⟩
    simp only [Machine.run, machine, step, Pool.quit, cancelled rfl, found, if_true, Option.map_some, Option.bind_some]
  | processing task records =>
    refine ⟨[.finish worker .cancelled (january 9)], { pool with
      toPool := (pool.setStatus task fun status =>
        { status with status := .cancelled, error := some "worker task cancelled"
                      finishedAt := some (january 9) }).setWorker worker .ended
      cancelling := reached pool.cancelling worker }, ?_, rfl, frees, fun other free => ?_⟩
    · simp only [Machine.run, machine, step, Pool.finish, found, Option.map_some, Option.bind_some]
    · exact Function.update_of_ne (only task rfl other free) _ _
  | notifying task =>
    refine ⟨[.notified worker .cancelled (january 9)], { pool with
      toPool := (pool.setStatus task fun status => { status with finishedAt := some (january 9) }).setWorker
        worker .ended
      cancelling := reached pool.cancelling worker }, ?_, rfl, frees, fun other free => ?_⟩
    · simp only [Machine.run, machine, step, Pool.notified, found, if_true, Option.map_some, Option.bind_some]
    · exact Function.update_of_ne (only task rfl other free) _ _

theorem all_end (config : PoolConfig) (loops : List Nat) (pool : BackgroundWorkerPool Result)
    (cancelled : ∀ worker ∈ loops, ∃ state, pool.workers[worker]? = some state ∧
      (state = .waiting → pool.cancelling worker = true))
    (free : ∀ worker ∈ loops, ¬ pool.HeldBy task worker) :
    ∃ labels final, (machine Result config).run pool labels = some final ∧ AllEnded final.toPool loops ∧
      final.tasks task = pool.tasks task ∧
      ∀ worker : Nat, pool.workers[worker]? = some Worker.ended → final.workers[worker]? = some Worker.ended := by
  induction loops generalizing pool with
  | nil =>
    have none : AllEnded pool.toPool [] := by
      intro worker member
      cases member
    exact ⟨[], pool, rfl, none, rfl, fun _ ended => ended⟩
  | cons worker loops ih =>
    obtain ⟨state, found, waits⟩ := cancelled worker List.mem_cons_self
    obtain ⟨labels, next, ran, workers, others, tasks⟩ := ends config found waits
    have inside : worker < pool.workers.length := (List.getElem?_eq_some_iff.mp found).1
    have now : ∀ other, next.workers[other]? = if worker = other then some Worker.ended else pool.workers[other]? := by
      intro other
      rw [workers, List.getElem?_set]
      split <;> rfl
    obtain ⟨rest, final, ranOn, ended, same, still⟩ := ih next
      (fun other member => by
        rw [now]
        split
        next => exact ⟨.ended, rfl, nofun⟩
        next different =>
          rw [others other (Ne.symm different)]
          exact cancelled other (List.mem_cons_of_mem _ member))
      (fun other member held => by
        rw [Pool.HeldBy, now] at held
        split at held
        next => cases held
        next => exact free other (List.mem_cons_of_mem _ member) held)
    refine ⟨labels ++ rest, final, Machine.run_append.mpr ⟨next, ran, ranOn⟩, fun other member => ?_, ?_,
      fun other gone => still other ?_⟩
    · rcases List.mem_cons.mp member with rfl | later
      · exact still other (by rw [now, if_pos rfl])
      · exact ended other later
    · rw [same, tasks task (free worker List.mem_cons_self)]
    · rw [now]
      split
      next => rfl
      next => exact gone

def CurrentStarted (pool : BackgroundWorkerPool Result) : Prop :=
  ∀ worker ∈ pool.current, worker < pool.workers.length

theorem currentStarted_step {label : Label Result} (started : CurrentStarted before)
    (stepped : (machine Result config).step before label = some after) : CurrentStarted after := by
  have longer : after.current = before.current → before.workers.length ≤ after.workers.length →
      CurrentStarted after := by
    intro current length worker member
    rw [current] at member
    exact (started worker member).trans_le length
  cases transition_of_step stepped with
  | restarted | rejected | swallowed | submitted => exact started
  | stopReturned => exact fun worker member => by cases member
  | started stopped =>
    have same : before.start config = _ := if_neg (by rw [stopped]; exact Bool.false_ne_true)
    rw [same]
    intro worker member
    obtain ⟨index, inside, rfl⟩ := List.mem_map.mp member
    rw [List.length_append, List.length_replicate]
    exact Nat.add_lt_add_left (List.mem_range.mp inside) _
  | stopCalled =>
    refine longer ?_ (by rw [stop_workers])
    unfold stop
    split <;> rfl
  | taken | forgotten | quit => exact longer rfl (List.length_set ..).ge
  | finished _ _ _ _ _ _ continues => exact longer rfl (by rw [continues.workers, List.length_set])
  | notified _ _ _ _ _ _ continues => exact longer rfl (by rw [continues.workers, List.length_set])

/-- In every run of the pool and at every moment, `stop` leaves no task queued or
running exactly if every task has ended or is in hand. -/
theorem leaves_no_limbo_iff (config : PoolConfig) (labels : List (Label Result))
    (moment : BackgroundWorkerPool Result) (ran : (machine Result config).run .empty labels = some moment) :
    LeavesNoLimbo config moment ↔ InHand moment := by
  have accounted : moment.toPool.Accounted := Machine.invariant_of_step (fun pool => pool.toPool.Accounted) .initial
    (fun _ _ _ => accounted_step) ran
  have started : CurrentStarted moment := Machine.invariant_of_step CurrentStarted
    (fun _ member => by cases member) (fun _ _ _ => currentStarted_step) ran
  constructor
  · intro leaves task status found
    by_contra limbo
    rw [not_or, not_exists] at limbo
    obtain ⟨unended, free⟩ := limbo
    have free : ∀ worker ∈ moment.awaited, ¬ moment.stop.HeldBy task worker := by
      intro worker member held
      rw [Pool.HeldBy, stop_workers] at held
      exact free worker ⟨member, held⟩
    have cancelled : ∀ worker ∈ moment.awaited, ∃ state, moment.stop.workers[worker]? = some state ∧
        (state = .waiting → moment.stop.cancelling worker = true) := by
      intro worker member
      unfold awaited at member
      split at member
      next running =>
        have inside := started worker member
        refine ⟨moment.workers[worker], by rw [stop_workers, List.getElem?_eq_getElem inside], fun waits => ?_⟩
        simp [stop, running, member, List.getElem?_eq_getElem inside, waits]
      next => cases member
    obtain ⟨rest, final, ranOn, ended, same, -⟩ := all_end config moment.awaited moment.stop cancelled free
    obtain ⟨last, foundLast, hasEnded⟩ := leaves rest final ranOn ended task (by rw [found]; exact Option.some_ne_none _)
    rw [same, stop_tasks, found] at foundLast
    cases foundLast
    exact unended hasEnded
  · intro inHand rest final ranOn ended task known
    obtain ⟨status, found⟩ := Option.ne_none_iff_exists'.mp known
    have covered : Covered moment.stop.toPool moment.awaited task := by
      rcases inHand task status found with hasEnded | ⟨worker, member, held⟩
      · exact .inl ⟨status, by rw [stop_tasks, found], hasEnded⟩
      · exact .inr ⟨worker, member, by rw [Pool.HeldBy, stop_workers]; exact held⟩
    have called : (machine Result config).step moment .stop = some moment.stop := rfl
    have stopped := accounted_step accounted called
    exact (Machine.invariant_of_step (fun pool => pool.toPool.Accounted ∧ Covered pool.toPool moment.awaited task)
      ⟨stopped, covered⟩ (fun _ _ _ kept stepped => ⟨accounted_step kept.1 stepped, covered_step kept.1 kept.2 stepped⟩)
      ranOn).2.ended ended

def oneWorker : PoolConfig := ⟨1, 1, 10, false⟩

/-- The pool is stopped before its worker has taken the task in the queue. -/
theorem queued_task_in_limbo :
    oneWorker.Admitted ∧ ∃ moment : BackgroundWorkerPool Unit,
      (machine Unit oneWorker).run .empty [.start, .submit 0 [] (january 9)] = some moment ∧
      ¬ LeavesNoLimbo oneWorker moment := by
  refine ⟨⟨by decide, by decide, by decide⟩, _, rfl, fun leaves => ?_⟩
  obtain ⟨status, found, ended⟩ := leaves [.quit 0] _ rfl (by decide) 0 (Option.some_ne_none _)
  cases found
  exact ended.not_queued rfl

def takenTask : List (Label Unit) := [.start, .submit 0 [] (january 9), .dequeue 0 (january 9)]

/-- The only task of the pool is with its worker when the pool is stopped. -/
theorem taken_task_not_in_limbo :
    ∃ moment : BackgroundWorkerPool Unit,
      (machine Unit oneWorker).run .empty takenTask = some moment ∧ LeavesNoLimbo oneWorker moment := by
  refine ⟨_, rfl, (leaves_no_limbo_iff oneWorker takenTask _ rfl).mpr fun task status found => ?_⟩
  by_cases same : task = 0
  · subst same
    exact .inr ⟨0, by decide, rfl⟩
  · cases (Function.update_of_ne same _ _).symm.trans ((Function.update_of_ne same _ _).symm.trans found)

end BackgroundWorkerPool

end DataPipeline.Ingestor
