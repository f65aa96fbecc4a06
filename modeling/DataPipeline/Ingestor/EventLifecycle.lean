import DataPipeline.Ingestor.Events
import DataPipeline.Library.Execution

/-! How far the status of an event agrees with the columns that go with it.

Nothing in `ingestor/storage/events.py` looks at the status before it is
overwritten. What that does to an event follows from its status and the mark.
-/

set_option autoImplicit false

namespace DataPipeline.Ingestor

open Execution Calendar

/-! ## Runs -/

/-- An operation with what the database and the clock contribute to it. -/
inductive EventOperation where
  | create (data : EventData) (fresh : Fresh)
  | batchCreate (rows : List (EventData × Fresh))
  | mark (eventId : Int) (kind : EventMark) (updatedAt : DateTime)

def EventMark.run (store : EventStore) (eventId : Int) (mark : EventMark) (updatedAt : DateTime) :
    Except DatabaseError (EventStore × Option ProcessedEvent) :=
  match mark with
  | .processing => markEventProcessing store eventId updatedAt
  | .completed now => markEventCompleted store eventId now updatedAt
  | .failed errorMessage errorDetails => markEventFailed store eventId errorMessage errorDetails updatedAt
  | .dlq reason => markEventDlq store eventId reason updatedAt

@[simp] theorem EventMark.run_eq (store : EventStore) (eventId : Int) (mark : EventMark) (updatedAt : DateTime) :
    mark.run store eventId updatedAt = markEvent store eventId mark updatedAt := by
  cases mark <;> rfl

namespace EventOperation

def newIds : EventOperation → List Int
  | .create _ fresh => [fresh.id]
  | .batchCreate rows => rows.map fun row => row.2.id
  | .mark _ _ _ => []

def run (store : EventStore) : EventOperation → Except DatabaseError EventStore
  | .create data fresh => (createProcessedEvent store data fresh).map (·.1)
  | .batchCreate rows => (batchCreateProcessedEvents store rows).map (·.1)
  | .mark eventId kind updatedAt => (kind.run store eventId updatedAt).map (·.1)

end EventOperation

/-- The table under operations one after another; a failed one is rolled back. -/
def eventMachine : Machine EventStore EventOperation where
  step store operation :=
    if operation.newIds.Nodup ∧ ∀ id ∈ operation.newIds, id ∉ store.issued then
      some ((operation.run store).toOption.getD store)
    else none

/-- `completed` and `dead_letter` end the lifecycle. -/
def EventStatus.terminal : EventStatus → Bool
  | .completed | .deadLetter => true
  | .pending | .processing | .failed => false

/-- The columns that go with the status say the same as the status. -/
structure ProcessedEvent.Coherent (event : ProcessedEvent) : Prop where
  deadLetterQueue : event.deadLetterQueue = true ↔ event.status = .deadLetter
  processedAt : event.processedAt.isSome = true ↔ event.status = .completed

/-- The two ways to list the dead letters find the same events. -/
def SameDeadLetters (store : EventStore) : Prop :=
  ∀ limit event, store.rows.length ≤ limit →
    (event ∈ getDlqEvents store limit ↔ event ∈ getEventsByStatus store "dead_letter" limit)

structure CoherentStore (store : EventStore) : Prop where
  rows : ∀ event ∈ store.rows, event.Coherent
  deadLetters : SameDeadLetters store

/-- No event that had reached the end of the lifecycle has another status now. -/
def KeepsTerminal (before after : EventStore) : Prop :=
  ∀ id event, before.find? id = some event → event.status.terminal = true →
    ∃ later, after.find? id = some later ∧ later.status = event.status

/-- An event that has reached the end of the lifecycle is not given another
status, as far as the mark would be accepted. -/
def EventOperation.Orderly (store : EventStore) : EventOperation → Prop
  | .create _ _ | .batchCreate _ => True
  | .mark eventId kind _ => ∀ event, store.find? eventId = some event → event.status.terminal = true →
      kind.status = event.status ∨ (kind.changes event).fits = false

/-! ## What a step does -/

variable {store before after : EventStore} {event row : ProcessedEvent} {operation : EventOperation}

theorem EventStatus.text_injective : Function.Injective EventStatus.text := by
  intro first second same
  cases first <;> cases second <;> first | rfl | (simp [text] at same)

theorem sameDeadLetters_of_coherent (coherent : ∀ event ∈ store.rows, event.Coherent) : SameDeadLetters store := by
  intro limit event all
  have short {keep : ProcessedEvent → Bool} : (store.rows.filter keep).length ≤ limit :=
    (List.length_filter_le keep store.rows).trans all
  unfold getDlqEvents getEventsByStatus
  rw [List.take_of_length_le (by rw [List.length_mergeSort]; exact short), List.take_of_length_le short,
    List.mem_mergeSort, List.mem_filter, List.mem_filter, decide_eq_true_eq]
  have named : event.status.text = "dead_letter" ↔ event.status = .deadLetter :=
    ⟨fun same => EventStatus.text_injective same, fun same => by rw [same]; rfl⟩
  rw [named]
  exact and_congr_right fun member => (coherent event member).deadLetterQueue

theorem coherent_ofData (data : EventData) (fresh : Fresh) : (ProcessedEvent.ofData data fresh).Coherent where
  deadLetterQueue := by simp [ProcessedEvent.ofData]
  processedAt := by simp [ProcessedEvent.ofData]

structure Extends (store after : EventStore) : Prop where
  kept : ∀ event ∈ store.rows, event ∈ after.rows
  new : ∀ event ∈ after.rows, event ∈ store.rows ∨ ∃ data fresh, event = ProcessedEvent.ofData data fresh

theorem Extends.refl (store : EventStore) : Extends store store := ⟨fun _ member => member, fun _ member => .inl member⟩

theorem Extends.trans {middle : EventStore} (first : Extends store middle) (second : Extends middle after) :
    Extends store after where
  kept event member := second.kept event (first.kept event member)
  new event member := by
    rcases second.new event member with old | new
    · exact first.new event old
    · exact .inr new

theorem insertEvent_extends {data : EventData} {fresh : Fresh}
    (inserted : insertEvent store data fresh = .ok (after, event)) : Extends store after := by
  obtain ⟨rfl, inserting⟩ := insertEvent_ok inserted
  refine ⟨fun old member => (Table.mem_insert? inserting).mpr (.inl member), fun row member => ?_⟩
  exact ((Table.mem_insert? inserting).mp member).imp_right fun new => ⟨data, fresh, new⟩

theorem createProcessedEvent_extends {data : EventData} {fresh : Fresh} {result : Option ProcessedEvent × Bool}
    (created : createProcessedEvent store data fresh = .ok (after, result)) : Extends store after := by
  unfold createProcessedEvent at created
  split at created
  next inserted => cases created; exact insertEvent_extends inserted
  next => cases created; exact .refl _
  next => cases created

theorem batchCreate_extends {rows : List (EventData × Fresh)} {events : List ProcessedEvent}
    (created : batchCreateProcessedEvents store rows = .ok (after, events)) : Extends store after := by
  induction rows generalizing store events with
  | nil => cases created; exact .refl _
  | cons row rows ih =>
    obtain ⟨data, fresh⟩ := row
    rw [batchCreateProcessedEvents] at created
    cases inserted : insertEvent store data fresh with
    | error problem => rw [inserted] at created; cases created
    | ok result =>
      obtain ⟨middle, event⟩ := result
      rw [inserted] at created
      cases rest : batchCreateProcessedEvents middle rows with
      | error problem => simp [rest, bind, Except.bind] at created
      | ok tail =>
        obtain ⟨last, tail⟩ := tail
        simp only [rest, bind, Except.bind, pure, Except.pure, Except.ok.injEq, Prod.mk.injEq] at created
        obtain ⟨rfl, -⟩ := created
        exact (insertEvent_extends inserted).trans (ih rest)

theorem step_mark {eventId : Int} {kind : EventMark} {updatedAt : DateTime}
    (stepped : eventMachine.step store (.mark eventId kind updatedAt) = some after) :
    (after = store ∧ ∀ event, store.find? eventId = some event → (kind.changes event).fits = false) ∨
    ∃ event, store.find? eventId = some event ∧ (kind.changes event).fits = true ∧
      Rewritten store after (event.write (kind.changes event) updatedAt) := by
  simp only [eventMachine, Option.ite_none_right_eq_some, Option.some.injEq] at stepped
  obtain ⟨-, rfl⟩ := stepped
  simp only [EventOperation.run, EventMark.run_eq]
  rcases markEvent_cases store eventId kind updatedAt with ⟨absent, missing⟩ | ⟨event, found, ⟨misfit, refused⟩ |
    ⟨fit, after, rewritten, marked⟩⟩
  · rw [missing]
    exact .inl ⟨rfl, by simp [absent]⟩
  · rw [refused]
    exact .inl ⟨rfl, by simpa [found] using misfit⟩
  · rw [marked]
    exact .inr ⟨event, found, fit, rewritten⟩

theorem step_cases (stepped : eventMachine.step store operation = some after) :
    Extends store after ∨ ∃ eventId kind updatedAt event, operation = .mark eventId kind updatedAt ∧
      store.find? eventId = some event ∧ (kind.changes event).fits = true ∧
      Rewritten store after (event.write (kind.changes event) updatedAt) := by
  cases operation with
  | create data fresh =>
    left
    simp only [eventMachine, Option.ite_none_right_eq_some, Option.some.injEq] at stepped
    obtain ⟨-, rfl⟩ := stepped
    cases created : createProcessedEvent store data fresh with
    | error problem => simpa [EventOperation.run, created, Except.map, Except.toOption] using Extends.refl store
    | ok result =>
      simpa [EventOperation.run, created, Except.map, Except.toOption] using createProcessedEvent_extends created
  | batchCreate rows =>
    left
    simp only [eventMachine, Option.ite_none_right_eq_some, Option.some.injEq] at stepped
    obtain ⟨-, rfl⟩ := stepped
    cases created : batchCreateProcessedEvents store rows with
    | error problem => simpa [EventOperation.run, created, Except.map, Except.toOption] using Extends.refl store
    | ok result => simpa [EventOperation.run, created, Except.map, Except.toOption] using batchCreate_extends created
  | mark eventId kind updatedAt =>
    rcases step_mark stepped with ⟨rfl, -⟩ | ⟨event, found, fit, rewritten⟩
    · exact .inl (.refl after)
    · exact .inr ⟨eventId, kind, updatedAt, event, rfl, found, fit, rewritten⟩

theorem find?_marked {eventId : Int} {kind : EventMark} {updatedAt : DateTime}
    (found : store.find? eventId = some event)
    (rewritten : Rewritten store after (event.write (kind.changes event) updatedAt)) :
    ∃ later, after.find? eventId = some later ∧ later.status = kind.status := by
  obtain ⟨-, named⟩ := Table.find?_eq_some_iff.mp found
  refine ⟨_, ?_, (kind.write_changes event updatedAt).1⟩
  rw [rewritten.find, if_pos (by simp [named])]

/-- What a mark writes is coherent unless it takes an event out of its final status. -/
theorem coherent_marked {kind : EventMark} {updatedAt : DateTime} (coherent : event.Coherent)
    (orderly : event.status.terminal = true → kind.status = event.status) :
    (event.write (kind.changes event) updatedAt).Coherent := by
  obtain ⟨status, queue, processed⟩ := kind.write_changes event updatedAt
  refine ⟨?_, ?_⟩
  · rw [queue, status, Bool.or_eq_true, decide_eq_true_eq, coherent.deadLetterQueue, or_iff_right_iff_imp]
    intro dead
    rw [orderly (by rw [dead]; rfl), dead]
  · rw [processed, status, Bool.or_eq_true, decide_eq_true_eq, coherent.processedAt, or_iff_right_iff_imp]
    intro completed
    rw [orderly (by rw [completed]; rfl), completed]

theorem coherent_step (coherent : ∀ event ∈ store.rows, event.Coherent) (orderly : operation.Orderly store)
    (stepped : eventMachine.step store operation = some after) : ∀ event ∈ after.rows, event.Coherent := by
  intro row member
  rcases step_cases stepped with extends_ | ⟨eventId, kind, updatedAt, event, rfl, found, fit, rewritten⟩
  · rcases extends_.new row member with old | ⟨data, fresh, rfl⟩
    · exact coherent row old
    · exact coherent_ofData data fresh
  · rcases rewritten.mem_iff.mp member with rfl | ⟨old, -⟩
    · have present := (Table.find?_eq_some_iff.mp found).1
      apply coherent_marked (coherent event present)
      intro terminal
      rcases orderly event found terminal with same | misfit
      · exact same
      · rw [fit] at misfit
        cases misfit
    · exact coherent row old

/-- A step keeps the final statuses exactly if it is orderly. -/
theorem keepsTerminal_iff (stepped : eventMachine.step store operation = some after) :
    KeepsTerminal store after ↔ operation.Orderly store := by
  constructor
  · intro keeps
    cases operation with
    | create | batchCreate => trivial
    | mark eventId kind updatedAt =>
      intro event found terminal
      rcases step_mark stepped with ⟨-, misfit⟩ | ⟨other, foundToo, -, rewritten⟩
      · exact .inr (misfit event found)
      · rw [found] at foundToo
        cases foundToo
        obtain ⟨later, now, status⟩ := find?_marked found rewritten
        obtain ⟨same, foundSame, kept⟩ := keeps eventId event found terminal
        rw [now] at foundSame
        cases foundSame
        exact .inl (status.symm.trans kept)
  · intro orderly id event found terminal
    rcases step_cases stepped with extends_ | ⟨eventId, kind, updatedAt, marked, rfl, foundToo, fit, rewritten⟩
    · obtain ⟨member, named⟩ := Table.find?_eq_some_iff.mp found
      exact ⟨event, Table.find?_eq_some_iff.mpr ⟨extends_.kept event member, named⟩, rfl⟩
    · obtain ⟨-, named⟩ := Table.find?_eq_some_iff.mp foundToo
      by_cases same : eventId = id
      · subst same
        rw [found] at foundToo
        cases foundToo
        obtain ⟨later, now, status⟩ := find?_marked found rewritten
        rcases orderly event found terminal with kept | misfit
        · exact ⟨later, now, status.trans kept⟩
        · rw [fit] at misfit
          cases misfit
      · refine ⟨event, ?_, rfl⟩
        rw [rewritten.find, if_neg (by rw [ProcessedEvent.id_write, named]; exact same), found]

/-! ## What a run does -/

/-- In every run the statuses stay coherent and final ones are kept exactly if
no mark takes an event out of a final status. -/
theorem status_coherent_iff (operations : List EventOperation) :
    (eventMachine.Throughout Table.empty operations CoherentStore ∧
      eventMachine.Every Table.empty operations fun _ before _ after => KeepsTerminal before after) ↔
    eventMachine.Every Table.empty operations fun _ before operation _ => operation.Orderly before := by
  constructor
  · rintro ⟨-, keeps⟩
    exact keeps.mono fun _ _ _ _ _ stepped kept => (keepsTerminal_iff stepped).mp kept
  · intro orderly
    refine ⟨?_, orderly.mono fun _ _ _ _ _ stepped meets => (keepsTerminal_iff stepped).mpr meets⟩
    have rows := Machine.throughout_of_every (fun store : EventStore => ∀ event ∈ store.rows, event.Coherent)
      (fun _ member => by cases member) orderly
      fun _ before operation after coherent meets stepped => coherent_step coherent meets stepped
    intro earlier later store split ran
    have coherent := rows earlier later store split ran
    exact ⟨coherent, sameDeadLetters_of_coherent coherent⟩

/-- A completed event is delivered again, and another goes to the queue before it is completed. -/
def redelivered : List EventOperation :=
  [.create arrived freshOne, .mark 1 (.completed (january 10)) (january 10), .mark 1 .processing (january 11)]

def completedFromQueue : List EventOperation :=
  [.create arrived freshOne, .mark 1 (.dlq "poison") (january 10), .mark 1 (.completed (january 11)) (january 11)]

/-- The event that is delivered again is in processing with a time of completion,
and the other is completed and still in the queue. -/
theorem redelivery_incoherent :
    (¬ ∀ operations, eventMachine.Throughout Table.empty operations CoherentStore ∧
      eventMachine.Every Table.empty operations fun _ before _ after => KeepsTerminal before after) ∧
    ((eventMachine.run Table.empty redelivered).any fun store => store.rows.any fun event =>
      event.status = .processing && event.processedAt.isSome) = true ∧
    ((eventMachine.run Table.empty completedFromQueue).any fun store => store.rows.any fun event =>
      event.status = .completed && event.deadLetterQueue) = true := by
  have ends : ((eventMachine.run Table.empty redelivered).any fun store => store.rows.any fun event =>
      event.status = .processing && event.processedAt.isSome) = true := by decide +kernel
  refine ⟨fun always => ?_, ends, by decide +kernel⟩
  obtain ⟨store, ran, event⟩ := (Option.any_eq_true _ _).mp ends
  obtain ⟨event, member, state⟩ := List.any_eq_true.mp event
  simp only [Bool.and_eq_true, decide_eq_true_eq] at state
  obtain ⟨processing, processed⟩ := state
  have coherent := ((always redelivered).1 redelivered [] store (by simp) ran).rows event member
  rw [coherent.processedAt.mp processed] at processing
  cases processing

end DataPipeline.Ingestor
