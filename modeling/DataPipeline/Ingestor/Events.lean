import DataPipeline.Ingestor.Models

/-! The consumed events of `ingestor/storage/events.py` and their table.

Each operation runs in a session of its own. The ORM writes only the columns
that were given a value that differs from the loaded one, and `updated_at` with
them. The database refuses values that do not fit their columns.
-/

set_option autoImplicit false

namespace DataPipeline.Ingestor

open Calendar

/-! ## Rows -/

inductive EventStatus where
  | pending
  | processing
  | completed
  | failed
  | deadLetter
  deriving DecidableEq, Repr

def EventStatus.text : EventStatus → String
  | .pending => "pending"
  | .processing => "processing"
  | .completed => "completed"
  | .failed => "failed"
  | .deadLetter => "dead_letter"

/-- What a caller tells about an event. -/
structure EventData where
  kafkaTopic : String
  kafkaPartition : Int
  kafkaOffset : Int
  idempotencyKey : String
  eventType : String
  payload : List (Encoding.Text × Json)
  deriving DecidableEq

/-- A row of `processed_events`. -/
structure ProcessedEvent where
  id : Int
  data : EventData
  status : EventStatus
  processingAttempts : Int
  errorMessage : Option String
  errorDetails : Option (List (Encoding.Text × Json))
  deadLetterQueue : Bool
  dlqReason : Option String
  processedAt : Option DateTime
  createdAt : DateTime
  updatedAt : Option DateTime
  deletedAt : Option DateTime
  deriving DecidableEq

/-- The column of the unique index `ix_events_idempotency_key`. -/
def ProcessedEvent.idempotencyKey (event : ProcessedEvent) : String := event.data.idempotencyKey

abbrev EventStore := Table ProcessedEvent.id ProcessedEvent.idempotencyKey

/-! ## Columns -/

def fitsInteger (value : Int) : Bool := -2 ^ 31 ≤ value && value < 2 ^ 31

def EventData.fits (data : EventData) : Bool :=
  fitsString 255 data.kafkaTopic && fitsInteger data.kafkaPartition && fitsInteger data.kafkaOffset &&
    fitsString 255 data.idempotencyKey && fitsString 100 data.eventType && (Json.dict data.payload).isFinite

structure EventChanges where
  status : Option EventStatus
  processingAttempts : Option Int
  errorMessage : Option (Option String)
  errorDetails : Option (Option (List (Encoding.Text × Json)))
  deadLetterQueue : Option Bool
  dlqReason : Option (Option String)
  processedAt : Option (Option DateTime)
  deriving DecidableEq

namespace EventChanges

def empty : EventChanges := ⟨none, none, none, none, none, none, none⟩

def fits (changes : EventChanges) : Bool :=
  changes.processingAttempts.all fitsInteger && changes.errorMessage.all (·.all (fitsString 500)) &&
    changes.errorDetails.all (·.all fun details => (Json.dict details).isFinite) &&
    changes.dlqReason.all (·.all (fitsString 500))

end EventChanges

/-- Without a changed column no UPDATE is sent, so `updated_at` stays as well. -/
def ProcessedEvent.write (event : ProcessedEvent) (changes : EventChanges) (updatedAt : DateTime) : ProcessedEvent :=
  if changes = .empty then event
  else
    { event with
      status := changes.status.getD event.status
      processingAttempts := changes.processingAttempts.getD event.processingAttempts
      errorMessage := changes.errorMessage.getD event.errorMessage
      errorDetails := changes.errorDetails.getD event.errorDetails
      deadLetterQueue := changes.deadLetterQueue.getD event.deadLetterQueue
      dlqReason := changes.dlqReason.getD event.dlqReason
      processedAt := changes.processedAt.getD event.processedAt
      updatedAt := some updatedAt }

/-! ## Creating events -/

/-- The row an INSERT makes: new events are pending. -/
def ProcessedEvent.ofData (data : EventData) (fresh : Fresh) : ProcessedEvent where
  id := fresh.id
  data := data
  status := .pending
  processingAttempts := 0
  errorMessage := none
  errorDetails := none
  deadLetterQueue := false
  dlqReason := none
  processedAt := none
  createdAt := fresh.createdAt
  updatedAt := some fresh.updatedAt
  deletedAt := none

inductive DatabaseError where
  | integrityError
  | dataError
  /-- The row to be changed is gone. -/
  | staleDataError
  deriving DecidableEq, Repr

def insertEvent (store : EventStore) (data : EventData) (fresh : Fresh) :
    Except DatabaseError (EventStore × ProcessedEvent) :=
  if data.fits then
    let event := ProcessedEvent.ofData data fresh
    match store.insert? event with
    | some after => .ok (after, event)
    | none => .error .integrityError
  else .error .dataError

/-- The SELECT by which a duplicate is fetched. -/
def selectDuplicate (store : EventStore) (idempotencyKey : String) : Option ProcessedEvent :=
  store.findKey? idempotencyKey

/-- `create_processed_event`: a rejected event is fetched instead. -/
def createProcessedEvent (store : EventStore) (data : EventData) (fresh : Fresh) :
    Except DatabaseError (EventStore × Option ProcessedEvent × Bool) :=
  match insertEvent store data fresh with
  | .ok (store, event) => .ok (store, some event, true)
  | .error .integrityError => .ok (store, selectDuplicate store data.idempotencyKey, false)
  | .error other => .error other

/-- `batch_create_processed_events`: one statement, which inserts all rows or none. -/
def batchCreateProcessedEvents (store : EventStore) :
    List (EventData × Fresh) → Except DatabaseError (EventStore × List ProcessedEvent)
  | [] => .ok (store, [])
  | (data, fresh) :: rest => do
    let (store, event) ← insertEvent store data fresh
    let (store, events) ← batchCreateProcessedEvents store rest
    return (store, event :: events)

/-! ## Marking events -/

/-- The four ways to mark an event, with their arguments and readings of the clock. -/
inductive EventMark where
  | processing
  | completed (now : DateTime)
  | failed (errorMessage : String) (errorDetails : Option (List (Encoding.Text × Json)))
  | dlq (reason : String)
  deriving DecidableEq

def EventMark.status : EventMark → EventStatus
  | .processing => .processing
  | .completed _ => .completed
  | .failed _ _ => .failed
  | .dlq _ => .deadLetter

def changed {α : Type} [DecidableEq α] (loaded value : α) : Option α := if value = loaded then none else some value

def changedDetails (loaded value : Option (List (Encoding.Text × Json))) :
    Option (Option (List (Encoding.Text × Json))) :=
  match loaded, value with
  | some loaded, some value => if (Json.dict loaded).pyEq (.dict value) then none else some (some value)
  | loaded, value => changed loaded value

def EventMark.changes (mark : EventMark) (loaded : ProcessedEvent) : EventChanges :=
  let status := changed loaded.status mark.status
  match mark with
  | .processing =>
    { EventChanges.empty with
      status, processingAttempts := changed loaded.processingAttempts (loaded.processingAttempts + 1) }
  | .completed now => { EventChanges.empty with status, processedAt := changed loaded.processedAt (some now) }
  | .failed errorMessage errorDetails =>
    { EventChanges.empty with
      status
      errorMessage := changed loaded.errorMessage (some errorMessage)
      errorDetails := changedDetails loaded.errorDetails errorDetails }
  | .dlq reason =>
    { EventChanges.empty with
      status
      deadLetterQueue := changed loaded.deadLetterQueue true
      dlqReason := changed loaded.dlqReason (some reason) }

def writeChanges (store : EventStore) (eventId : Int) (changes : EventChanges) (updatedAt : DateTime) :
    Except DatabaseError EventStore :=
  if changes = .empty then .ok store
  else if changes.fits then
    match store.find? eventId with
    | none => .error .staleDataError
    | some current =>
      match store.replace? (current.write changes updatedAt) with
      | some after => .ok after
      | none => .error .integrityError
  else .error .dataError

/-- An event is loaded, assigned to, committed and read again. -/
def markEvent (store : EventStore) (eventId : Int) (mark : EventMark) (updatedAt : DateTime) :
    Except DatabaseError (EventStore × Option ProcessedEvent) :=
  match store.find? eventId with
  | none => .ok (store, none)
  | some event =>
    (writeChanges store eventId (mark.changes event) updatedAt).map fun after => (after, after.find? eventId)

def markEventProcessing (store : EventStore) (eventId : Int) (updatedAt : DateTime) :=
  markEvent store eventId .processing updatedAt

def markEventCompleted (store : EventStore) (eventId : Int) (now updatedAt : DateTime) :=
  markEvent store eventId (.completed now) updatedAt

def markEventFailed (store : EventStore) (eventId : Int) (errorMessage : String)
    (errorDetails : Option (List (Encoding.Text × Json))) (updatedAt : DateTime) :=
  markEvent store eventId (.failed errorMessage errorDetails) updatedAt

def markEventDlq (store : EventStore) (eventId : Int) (reason : String) (updatedAt : DateTime) :=
  markEvent store eventId (.dlq reason) updatedAt

/-! ## Listings -/

/-- `get_events_by_status`; the order of its rows is that of the table. -/
def getEventsByStatus (store : EventStore) (status : String) (limit : Nat) : List ProcessedEvent :=
  (store.rows.filter fun event => event.status.text = status).take limit

/-- `get_dlq_events`, the newest first. -/
def getDlqEvents (store : EventStore) (limit : Nat) : List ProcessedEvent :=
  ((store.rows.filter fun event => event.deadLetterQueue).mergeSort fun first second =>
    second.createdAt ≤ first.createdAt).take limit

/-! ## What the operations do -/

variable {store after : EventStore} {eventId : Int} {event row : ProcessedEvent} {changes : EventChanges}
  {data : EventData} {fresh : Fresh}

@[simp] theorem ProcessedEvent.id_write (event : ProcessedEvent) (changes : EventChanges) (updatedAt : DateTime) :
    (event.write changes updatedAt).id = event.id := by
  unfold write
  split <;> rfl

@[simp] theorem ProcessedEvent.data_write (event : ProcessedEvent) (changes : EventChanges) (updatedAt : DateTime) :
    (event.write changes updatedAt).data = event.data := by
  unfold write
  split <;> rfl

structure Rewritten (store after : EventStore) (event : ProcessedEvent) : Prop where
  issued : after.issued = store.issued
  find : ∀ id, after.find? id = if event.id = id then some event else store.find? id

theorem Rewritten.mem_iff (rewritten : Rewritten store after event) :
    row ∈ after.rows ↔ row = event ∨ (row ∈ store.rows ∧ row.id ≠ event.id) := by
  have found : row ∈ after.rows ↔ after.find? row.id = some row := by simp [Table.find?_eq_some_iff]
  rw [found, rewritten.find]
  split
  next same => simp only [Option.some.injEq, same, ne_eq, not_true, and_false, or_false]; exact eq_comm
  next different =>
    rw [Table.find?_eq_some_iff]
    constructor
    · rintro ⟨member, -⟩
      exact .inr ⟨member, fun same => different same.symm⟩
    · rintro (rfl | ⟨member, -⟩)
      · exact absurd rfl different
      · exact ⟨member, rfl⟩

theorem Rewritten.refl (present : store.find? event.id = some event) : Rewritten store store event where
  issued := rfl
  find id := by
    split
    next same => rw [← same, present]
    next => rfl

theorem EventChanges.fits_empty : EventChanges.empty.fits = true := rfl

theorem writeChanges_cases (changes : EventChanges) (updatedAt : DateTime) (found : store.find? eventId = some event) :
    (changes.fits = false ∧ writeChanges store eventId changes updatedAt = .error .dataError) ∨
    (changes.fits = true ∧ ∃ after, writeChanges store eventId changes updatedAt = .ok after ∧
      Rewritten store after (event.write changes updatedAt)) := by
  obtain ⟨member, rfl⟩ := Table.find?_eq_some_iff.mp found
  unfold writeChanges
  by_cases unchanged : changes = .empty
  · have same : event.write changes updatedAt = event := if_pos unchanged
    refine .inr ⟨by rw [unchanged]; exact EventChanges.fits_empty, store, if_pos unchanged, ?_⟩
    rw [same]
    exact .refl found
  · rw [if_neg unchanged]
    by_cases fit : changes.fits = true
    · have key : (event.write changes updatedAt).idempotencyKey = event.idempotencyKey := by
        simp [ProcessedEvent.idempotencyKey]
      cases replacing : store.replace? (event.write changes updatedAt) with
      | none =>
        exact absurd replacing (Table.replace?_ne_none member (ProcessedEvent.id_write ..) key)
      | some after =>
        refine .inr ⟨fit, after, by simp only [fit, found, replacing, ↓reduceIte], ?_⟩
        refine ⟨(Table.replace?_rows replacing).2, fun id => ?_⟩
        exact Table.find?_replace? replacing ⟨event, member, by simp⟩
    · exact .inl ⟨by simpa using fit, by rw [if_neg fit]⟩

theorem writeChanges_ok {changes : EventChanges} {updatedAt : DateTime}
    (written : writeChanges store eventId changes updatedAt = .ok after) :
    (store.find? eventId = none ∧ after = store) ∨
    ∃ event, store.find? eventId = some event ∧ Rewritten store after (event.write changes updatedAt) := by
  cases found : store.find? eventId with
  | none =>
    refine .inl ⟨rfl, ?_⟩
    unfold writeChanges at written
    rw [found] at written
    split at written
    next => cases written; rfl
    next => split at written <;> cases written
  | some event =>
    refine .inr ⟨event, rfl, ?_⟩
    rcases writeChanges_cases changes updatedAt found with ⟨-, refused⟩ | ⟨-, table, accepted, rewritten⟩
    · rw [refused] at written
      cases written
    · rw [accepted] at written
      cases written
      exact rewritten

theorem markEvent_cases (store : EventStore) (eventId : Int) (mark : EventMark) (updatedAt : DateTime) :
    (store.find? eventId = none ∧ markEvent store eventId mark updatedAt = .ok (store, none)) ∨
    ∃ event, store.find? eventId = some event ∧
      (((mark.changes event).fits = false ∧ markEvent store eventId mark updatedAt = .error .dataError) ∨
      ((mark.changes event).fits = true ∧ ∃ after, Rewritten store after (event.write (mark.changes event) updatedAt) ∧
        markEvent store eventId mark updatedAt = .ok (after, some (event.write (mark.changes event) updatedAt)))) := by
  unfold markEvent
  cases found : store.find? eventId with
  | none => exact .inl ⟨rfl, rfl⟩
  | some event =>
    refine .inr ⟨event, rfl, ?_⟩
    obtain ⟨-, named⟩ := Table.find?_eq_some_iff.mp found
    rcases writeChanges_cases (mark.changes event) updatedAt found with
      ⟨misfit, refused⟩ | ⟨fit, after, written, rewritten⟩
    · exact .inl ⟨misfit, by simp only [refused, Except.map]⟩
    · refine .inr ⟨fit, after, rewritten, ?_⟩
      have now := rewritten.find eventId
      rw [if_pos (by simp [named])] at now
      simp only [written, Except.map, now]

theorem changed_getD {α : Type} [DecidableEq α] (loaded value : α) : (changed loaded value).getD loaded = value := by
  unfold changed
  split
  next same => rw [same]; rfl
  next => rfl

section

variable (event : ProcessedEvent) (changes : EventChanges) (updatedAt : DateTime)

theorem ProcessedEvent.status_write : (event.write changes updatedAt).status = changes.status.getD event.status := by
  unfold write
  split
  next unchanged => rw [unchanged]; rfl
  next => rfl

theorem ProcessedEvent.processingAttempts_write :
    (event.write changes updatedAt).processingAttempts =
      changes.processingAttempts.getD event.processingAttempts := by
  unfold write
  split
  next unchanged => rw [unchanged]; rfl
  next => rfl

theorem ProcessedEvent.deadLetterQueue_write :
    (event.write changes updatedAt).deadLetterQueue = changes.deadLetterQueue.getD event.deadLetterQueue := by
  unfold write
  split
  next unchanged => rw [unchanged]; rfl
  next => rfl

theorem ProcessedEvent.processedAt_write :
    (event.write changes updatedAt).processedAt = changes.processedAt.getD event.processedAt := by
  unfold write
  split
  next unchanged => rw [unchanged]; rfl
  next => rfl

end

/-- What a mark makes of the coupled columns of the event it was loaded from. -/
theorem EventMark.write_changes (mark : EventMark) (event : ProcessedEvent) (updatedAt : DateTime) :
    (event.write (mark.changes event) updatedAt).status = mark.status ∧
    (event.write (mark.changes event) updatedAt).deadLetterQueue = (event.deadLetterQueue || mark.status = .deadLetter) ∧
    (event.write (mark.changes event) updatedAt).processedAt.isSome =
      (event.processedAt.isSome || mark.status = .completed) := by
  rw [ProcessedEvent.status_write, ProcessedEvent.deadLetterQueue_write, ProcessedEvent.processedAt_write]
  cases mark with
  | processing | failed =>
    simp only [changes, changed_getD, true_and]
    simp [EventChanges.empty, status]
  | completed now =>
    simp only [changes, changed_getD, true_and]
    simp [EventChanges.empty, status]
  | dlq reason =>
    simp only [changes, changed_getD, true_and]
    simp [EventChanges.empty, status]

theorem insertEvent_cases (store : EventStore) (data : EventData) (fresh : Fresh) (new : fresh.id ∉ store.issued) :
    (data.fits = false ∧ insertEvent store data fresh = .error .dataError) ∨
    (data.fits = true ∧ (∃ old, store.findKey? data.idempotencyKey = some old) ∧
      insertEvent store data fresh = .error .integrityError) ∨
    (data.fits = true ∧ store.findKey? data.idempotencyKey = none ∧ ∃ after,
      store.insert? (ProcessedEvent.ofData data fresh) = some after ∧
      insertEvent store data fresh = .ok (after, ProcessedEvent.ofData data fresh)) := by
  have taken : store.insert? (ProcessedEvent.ofData data fresh) = none ↔
      ∃ old, store.findKey? data.idempotencyKey = some old := Table.insert?_eq_none_iff new
  by_cases fit : data.fits = true
  · refine .inr ?_
    simp only [insertEvent, fit, ↓reduceIte, true_and]
    cases inserted : store.insert? (ProcessedEvent.ofData data fresh) with
    | none => exact .inl ⟨taken.mp inserted, rfl⟩
    | some after =>
      refine .inr ⟨?_, after, rfl, rfl⟩
      cases free : store.findKey? data.idempotencyKey with
      | none => rfl
      | some old =>
        rw [taken.mpr ⟨old, free⟩] at inserted
        cases inserted
  · exact .inl ⟨by simpa using fit, if_neg fit⟩

theorem insertEvent_ok (inserted : insertEvent store data fresh = .ok (after, event)) :
    event = ProcessedEvent.ofData data fresh ∧ store.insert? event = some after := by
  simp only [insertEvent] at inserted
  split at inserted
  next =>
    split at inserted
    next table inserting => cases inserted; exact ⟨rfl, inserting⟩
    next => cases inserted
  next => cases inserted

/-! ## A sample event -/

def arrived : EventData := ⟨"records.events", 0, 100, "key", "record.created", []⟩

end DataPipeline.Ingestor
