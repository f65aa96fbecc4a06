import DataPipeline.Ingestor.Jobs
import DataPipeline.Ingestor.Validation

/-! `ingest_scheduled_batch_example` of `ingestor/jobs.py` under its retry decorator.

The decorator retries what raises, but `ingest_api_batch` turns an exception of
the database into a summary.
-/

set_option autoImplicit false

namespace DataPipeline.Ingestor.ScheduledBatch

open Calendar Encoding Execution Platform

structure Readings where
  started : ℚ
  fetched : DateTime
  validated : DateTime
  today : DateTime
  checked : ℚ
  marked : ℚ
  finished : ℚ

structure BatchResult where
  source : String
  inserted : Nat
  errors : Nat
  durationSeconds : ℚ
  deriving DecidableEq

/-- What leaves an attempt as an exception. -/
inductive Problem where
  | validationError (errors : List FieldError)
  | raised (error : String)

structure World where
  tracker : IdempotencyKeyTracker
  inserts : Nat
  stored : List RecordRequest

/-- `ingest_api_batch`, with the outcomes of the inserts that the database is sent. -/
def ingestApiBatch (database : Nat → Outcome Unit String) (world : World) (requests : List RecordRequest)
    (idempotencyKeyPrefix : Option String) (checked marked : ℚ) : World × Answer :=
  let job := Job.batch requests idempotencyKeyPrefix
  let (duplicate, tracker) := claimKey world.tracker job.dedupKey checked marked
  if duplicate then ({ world with tracker }, job.duplicateAnswer)
  else
    let insert := job.insert (database world.inserts)
    ({ tracker
       inserts := world.inserts + 1
       stored := if insert = .returned () then world.stored ++ requests else world.stored }, job.answer insert)

def sourceName : String := "example_source"

def exampleData : List (Text × Json) := [(Text.ofString "example", .str (Text.ofString "data"))]

def recordsData (fetched : DateTime) : List RawRequest :=
  [{ source := .value sourceName
     timestamp := .value (.datetime ⟨fetched, some 0⟩)
     data := .value exampleData
     tags := .value ["batch"] }]

def idempotencyKeyPrefix (today : DateTime) : String := sourceName ++ "_" ++ today.date.isoformat.toString

variable (isFinal : List Char → List Char → Bool) (parse : Json → Option Stamp)

def requests (readings : Readings) : Except (List FieldError) (List RecordRequest) :=
  (recordsData readings.fetched).mapM (RecordRequest.validate isFinal parse readings.validated)

/-- What the job makes of the answer to its batch. -/
def summarize (readings : Readings) : World × Answer → World × Outcome BatchResult Problem
  | (world, .summary inserted errors _) =>
    (world, .returned ⟨sourceName, inserted, errors, readings.finished - readings.started⟩)
  | (world, .raised error) => (world, .raised (.raised error))
  | (world, .cancelled) => (world, .cancelled)
  -- A batch answers with a summary.
  | (world, .record _) | (world, .skipped) => (world, .raised (.raised "TypeError"))

def bulkInsert (database : Nat → Outcome Unit String) (readings : Readings) (idempotencyKeyPrefix : String)
    (world : World) : Except (List FieldError) (List RecordRequest) → World × Outcome BatchResult Problem
  | .error errors => (world, .raised (.validationError errors))
  | .ok requests =>
    summarize readings
      (ingestApiBatch database world requests (some idempotencyKeyPrefix) readings.checked readings.marked)

/-- One attempt of `ingest_scheduled_batch_example`. -/
def attempt (database : Nat → Outcome Unit String) (readings : Readings) (world : World) :
    World × Outcome BatchResult Problem :=
  bulkInsert database readings (idempotencyKeyPrefix readings.today) world (requests isFinal parse readings)

/-- The arguments of its decorator. -/
def backoff : ExponentialBackoff := { maxRetries := 3, baseDelay := 2, maxDelay := 60 }

structure Setting where
  readings : Nat → Readings
  database : Nat → Outcome Unit String
  uniform : Nat → ℚ → ℚ → ℚ

def Setting.around (setting : Setting) : ExponentialBackoff.Surroundings World BatchResult Problem where
  func number := attempt isFinal parse setting.database (setting.readings number)
  uniform := setting.uniform
  sleep _ world := (world, false)

def ingestScheduledBatchExample (setting : Setting) (world : World) : World × Outcome BatchResult Problem :=
  backoff.wrapper (setting.around isFinal parse) world

/-! ## What is promised -/

/-- The first `failures` inserts raise, as far as they are sent, and the next
one succeeds if there is an attempt left for it. -/
structure FailsFirst (database : Nat → Outcome Unit String) (failures : Nat) : Prop where
  raises : ∀ insert < failures, ∃ error, database insert = .raised error
  succeeds : failures ≤ backoff.maxRetries → database failures = .returned ()

/-- The run makes up for the failures: its records are inserted once, as it
says. If no attempt is left it raises. -/
def Recovers (setting : Setting) (world : World) (failures : Nat) : Prop :=
  if failures ≤ backoff.maxRetries then
    ∃ number batch final result, requests isFinal parse (setting.readings number) = .ok batch ∧
      ingestScheduledBatchExample isFinal parse setting world = (final, .returned result) ∧
      final.stored = world.stored ++ batch ∧ result.inserted = batch.length ∧ result.errors = 0
  else ∃ final error, ingestScheduledBatchExample isFinal parse setting world = (final, .raised error)

def Unseen (setting : Setting) (tracker : IdempotencyKeyTracker) : Prop :=
  ∀ batch, requests isFinal parse (setting.readings 0) = .ok batch →
    tracker.seen (batchKey (idempotencyKeyPrefix (setting.readings 0).today) batch) = none

variable {isFinal} {parse} {readings : Readings} {database : Nat → Outcome Unit String} {tracker : IdempotencyKeyTracker}
  {stored batch : List RecordRequest} {setting : Setting} {failures : Nat}

/-- If the clock is not set back between its readings, the record of the batch is valid. -/
theorem requests_ok (isFinal : List Char → List Char → Bool) (parse : Json → Option Stamp)
    (steady : readings.fetched ≤ readings.validated) :
    ∃ request, requests isFinal parse readings = .ok [request] := by
  have source : validateSource isFinal sourceName = .ok sourceName := by
    have free : Casing.lower isFinal sourceName ∉ reservedAddresses := by
      rw [lower_mem_reserved_iff]
      simp [asciiLower, sourceName, reservedAddresses]
    rw [validateSource, if_neg (by decide), if_neg (by decide), sourceNotLocalhost, if_neg free]
  have timestamp : validateTimestamp parse readings.validated (.datetime ⟨readings.fetched, some 0⟩) =
      .ok readings.fetched := by
    simp only [validateTimestamp, normalizeTimestamp, RawTimestamp.read, notInFuture]
    rw [if_neg (not_lt.mpr steady)]
  have tags : validateTags isFinal ["batch"] = .ok (lowercaseTags isFinal ["batch"]) := if_neg (by decide)
  refine ⟨⟨sourceName, readings.fetched, exampleData, lowercaseTags isFinal ["batch"]⟩, ?_⟩
  rw [requests, recordsData, List.mapM_cons, RecordRequest.validate_values source timestamp tags]
  rfl

theorem dedupKey_batch (batch : List RecordRequest) (today : DateTime) :
    (Job.batch batch (some (idempotencyKeyPrefix today))).dedupKey =
      some (batchKey (idempotencyKeyPrefix today) batch) := by
  have nonempty : idempotencyKeyPrefix today ≠ "" := by
    intro empty
    have codes := congrArg String.toList empty
    simp [idempotencyKeyPrefix, sourceName] at codes
  simp [Job.dedupKey, given, nonempty]

theorem ingestApiBatch_new (database : Nat → Outcome Unit String) (stored : List RecordRequest) (checked marked : ℚ)
    {today : DateTime} {request : RecordRequest}
    (new : tracker.seen (batchKey (idempotencyKeyPrefix today) [request]) = none) :
    ∃ after, ingestApiBatch database ⟨tracker, 0, stored⟩ [request] (some (idempotencyKeyPrefix today)) checked marked =
      (⟨after, 1, if database 0 = .returned () then stored ++ [request] else stored⟩,
        (Job.batch [request] (some (idempotencyKeyPrefix today))).answer (database 0)) := by
  have claimed : (claimKey tracker (some (batchKey (idempotencyKeyPrefix today) [request])) checked marked).1 =
      false := by
    simp [claimKey, IdempotencyKeyTracker.isDuplicate, new]
  refine ⟨(claimKey tracker (some (batchKey (idempotencyKeyPrefix today) [request])) checked marked).2, ?_⟩
  simp only [ingestApiBatch, dedupKey_batch, claimed, Bool.false_eq_true, ↓reduceIte, Job.insert, Nat.zero_add]
  congr

theorem bulkInsert_ok (readings : Readings) (keyPrefix : String) (world : World) :
    bulkInsert database readings keyPrefix world (.ok batch) =
      summarize readings (ingestApiBatch database world batch (some keyPrefix) readings.checked readings.marked) := rfl

/-- The first attempt of a run is its last, whether the insert succeeds or raises. -/
theorem first_attempt (unseen : Unseen isFinal parse setting tracker) (stored : List RecordRequest)
    (steady : (setting.readings 0).fetched ≤ (setting.readings 0).validated) :
    ∃ request after duration, requests isFinal parse (setting.readings 0) = .ok [request] ∧
      (setting.database 0 = .returned () → ingestScheduledBatchExample isFinal parse setting ⟨tracker, 0, stored⟩ =
        (⟨after, 1, stored ++ [request]⟩, .returned ⟨sourceName, 1, 0, duration⟩)) ∧
      ∀ error, setting.database 0 = .raised error →
        ingestScheduledBatchExample isFinal parse setting ⟨tracker, 0, stored⟩ =
          (⟨after, 1, stored⟩, .returned ⟨sourceName, 0, 1, duration⟩) := by
  obtain ⟨request, built⟩ := requests_ok isFinal parse steady
  obtain ⟨after, ingested⟩ := ingestApiBatch_new setting.database stored (setting.readings 0).checked
    (setting.readings 0).marked (unseen [request] built)
  refine ⟨request, after, (setting.readings 0).finished - (setting.readings 0).started, built,
    fun inserted => ?_, fun error raised => ?_⟩
  · refine ExponentialBackoff.wrapper_first ?_ fun _ => nofun
    rw [inserted, if_pos rfl] at ingested
    exact (congrArg _ built).trans ((bulkInsert_ok ..).trans (congrArg _ ingested))
  · refine ExponentialBackoff.wrapper_first ?_ fun _ => nofun
    rw [raised, if_neg (fun same => by cases same)] at ingested
    exact (congrArg _ built).trans ((bulkInsert_ok ..).trans (congrArg _ ingested))

/-- An exception of the first insert becomes an error in the summary, and is lost on the decorator. -/
theorem not_recovers (unseen : Unseen isFinal parse setting tracker) (stored : List RecordRequest)
    (steady : (setting.readings 0).fetched ≤ (setting.readings 0).validated)
    (fails : FailsFirst setting.database failures) (some : failures ≠ 0) : ¬ Recovers isFinal parse setting ⟨tracker, 0, stored⟩ failures := by
  intro recovers
  obtain ⟨request, after, duration, -, -, raised⟩ := first_attempt unseen stored steady
  obtain ⟨error, first⟩ := fails.raises 0 (Nat.pos_of_ne_zero some)
  have ends := raised error first
  unfold Recovers at recovers
  split at recovers
  next =>
    obtain ⟨number, batch, final, result, -, ran, -, -, none⟩ := recovers
    cases ends.symm.trans ran
    cases none
  next =>
    obtain ⟨final, error, ran⟩ := recovers
    cases ends.symm.trans ran

/-- Whatever number of inserts raise first: the run makes up for the failures
exactly if there is none. -/
theorem scheduled_batch_recovers_iff (isFinal : List Char → List Char → Bool) (parse : Json → Option Stamp)
    (setting : Setting) (tracker : IdempotencyKeyTracker) (stored : List RecordRequest) (failures : Nat)
    (unseen : Unseen isFinal parse setting tracker)
    (steady : (setting.readings 0).fetched ≤ (setting.readings 0).validated)
    (fails : FailsFirst setting.database failures) :
    Recovers isFinal parse setting ⟨tracker, 0, stored⟩ failures ↔ failures = 0 := by
  constructor
  · intro recovers
    by_contra some
    exact not_recovers unseen stored steady fails some recovers
  · intro none
    subst none
    obtain ⟨request, after, duration, built, inserted, -⟩ := first_attempt unseen stored steady
    rw [Recovers, if_pos (Nat.zero_le _)]
    exact ⟨0, [request], _, _, built, inserted (fails.succeeds (Nat.zero_le _)), rfl, rfl, rfl⟩

/-- Nobody sets the clock back, and the database raises a number of times. -/
def busyDatabase (failures : Nat) : Setting where
  readings _ := ⟨0, january 9, january 9, january 9, 0, 0, 0⟩
  database := fun insert => if insert < failures then .raised "database is locked" else .returned ()
  uniform _ _ _ := 0

theorem busyDatabase_fails (failures : Nat) : FailsFirst (busyDatabase failures).database failures where
  raises _ early := ⟨"database is locked", if_pos early⟩
  succeeds _ := if_neg (Nat.lt_irrefl failures)

theorem scheduled_batch_recovers_at_once :
    Recovers (fun _ _ => false) (fun _ => none) (busyDatabase 0) ⟨.empty 3600, 0, []⟩ 0 :=
  (scheduled_batch_recovers_iff (fun _ _ => false) (fun _ => none) (busyDatabase 0) (.empty 3600) [] 0
    (fun _ _ => rfl) le_rfl (busyDatabase_fails 0)).mpr rfl

/-- One failure is not made up for: nothing is inserted, and the run returns. -/
theorem scheduled_batch_not_retried : FailsFirst (busyDatabase 1).database 1 ∧
    ¬ Recovers (fun _ _ => false) (fun _ => none) (busyDatabase 1) ⟨.empty 3600, 0, []⟩ 1 := by
  have unseen : Unseen (fun _ _ => false) (fun _ => none) (busyDatabase 1) (.empty 3600) := fun _ _ => rfl
  exact ⟨busyDatabase_fails 1, not_recovers unseen [] le_rfl (busyDatabase_fails 1) Nat.one_ne_zero⟩

end DataPipeline.Ingestor.ScheduledBatch
