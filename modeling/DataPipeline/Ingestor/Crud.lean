import DataPipeline.Ingestor.Models
import DataPipeline.Library.Execution

/-! The operations of `ingestor/crud.py` on one record or one batch.

Each runs in a session of its own and commits once, so it is one function from
the store before it to the store after it. None stands for an `IntegrityError`,
which leaves the store as it was. The ORM writes only columns whose new value
differs from the loaded one, and `updated_at` with them. Ids and contents are
taken to fit their columns, except that an upsert tells what it raises if not.
-/

set_option autoImplicit false

namespace DataPipeline.Ingestor

open Calendar

def createRecord (store : Store) (request : RecordRequest) (fresh : Fresh) : Option (Store × Record) :=
  let record := Record.ofRequest request fresh
  (store.insert? record).map fun store => (store, record)

/-- `create_records_batch`: one statement, which inserts all rows or none. -/
def createRecordsBatch (store : Store) : List (RecordRequest × Fresh) → Option (Store × List Record)
  | [] => some (store, [])
  | (request, fresh) :: rest => do
    let (store, record) ← createRecord store request fresh
    let (store, records) ← createRecordsBatch store rest
    return (store, record :: records)

/-- `create_records_batch_naive`: the commit inserts all rows or none, then each is read back. -/
def createRecordsBatchNaive (store : Store) (rows : List (RecordRequest × Fresh)) :
    Option (Store × List Record) := do
  let records := rows.map fun (request, fresh) => Record.ofRequest request fresh
  let store ← records.foldlM Table.insert? store
  let records ← records.mapM fun record => store.find? record.id
  return (store, records)

def getRecord (store : Store) (recordId : Int) : Option Record :=
  (store.find? recordId).filter fun record => record.deletedAt = none

/-- Writes the changed row, if there is a change, with the time of the write. -/
def writeBack (store : Store) (old new : Record) (updatedAt : DateTime) : Option (Store × Record) :=
  -- No UPDATE is sent, so `updated_at` stays as well.
  if new = old then some (store, old)
  else
    let record := { new with updatedAt := some updatedAt }
    (store.replace? record).map fun store => (store, record)

def markProcessed (store : Store) (recordId : Int) (now updatedAt : DateTime) :
    Option (Store × Option Record) :=
  match store.find? recordId with
  | none => some (store, none)
  | some record =>
    (writeBack store record
      { record with processed := true, processedAt := record.processedAt.or (some now) } updatedAt).map
        fun (store, record) => (store, some record)

/-- The row with the provided fields; data that compares equal is not a change. -/
def UpdateRecordRequest.apply (request : UpdateRecordRequest) (record : Record) : Record :=
  { record with
    source := request.source.getD record.source
    timestamp := request.timestamp.getD record.timestamp
    rawData := match request.data with
      | none => record.rawData
      | some data => if (Json.dict record.rawData).pyEq (.dict data) then record.rawData else data
    tags := request.tags.getD record.tags }

def updateRecord (store : Store) (recordId : Int) (request : UpdateRecordRequest) (updatedAt : DateTime) :
    Option (Store × Option Record) :=
  match store.find? recordId with
  | none => some (store, none)
  | some record =>
    (writeBack store record (request.apply record) updatedAt).map fun (store, record) => (store, some record)

def deleteRecord (store : Store) (recordId : Int) : Store × Option Record :=
  match store.find? recordId with
  | none => (store, none)
  | some record => (store.erase recordId, some record)

def softDeleteRecord (store : Store) (recordId : Int) (now updatedAt : DateTime) :
    Option (Store × Option Record) :=
  match store.find? recordId with
  | none => some (store, none)
  | some record =>
    -- A row that is archived already is reported as missing.
    if record.deletedAt = none then
      (writeBack store record { record with deletedAt := some now } updatedAt).map
        fun (store, record) => (store, some record)
    else some (store, none)

/-- How `upsert_record` ends: with a record and whether it was created, with its
assertion failing, or with contents that their columns do not take. -/
inductive Upserted where
  | returned (record : Record) (created : Bool)
  | assertionError
  | dataError
  deriving DecidableEq

/-- The SELECT after a conflict, which sees active rows only. -/
def selectExisting (store : Store) (request : RecordRequest) : Upserted :=
  match (store.findKey? request.key).filter fun record => record.deletedAt = none with
  | some existing => .returned existing false
  | none => .assertionError

def upsertRecord (store : Store) (request : RecordRequest) (fresh : Fresh) : Store × Upserted :=
  if request.fits then
    match createRecord store request fresh with
    | some (store, record) => (store, .returned record true)
    -- The constraint spans archived rows, the SELECT does not.
    | none => (store, selectExisting store request)
  -- Only an `IntegrityError` is caught.
  else (store, .dataError)

/-! ## What the operations do -/

variable {store after : Store} {request : RecordRequest} {fresh : Fresh} {record : Record} {recordId : Int}

theorem getRecord_eq_some_iff :
    getRecord store recordId = some record ↔ record ∈ store.rows ∧ record.id = recordId ∧ record.Active := by
  simp only [getRecord, Option.filter_eq_some_iff, Table.find?_eq_some_iff, decide_eq_true_eq, Record.Active,
    and_assoc]

theorem createRecord_eq_some (created : createRecord store request fresh = some (after, record)) :
    record = Record.ofRequest request fresh ∧ store.insert? record = some after := by
  simp only [createRecord, Option.map_eq_some_iff, Prod.mk.injEq] at created
  obtain ⟨_, inserted, rfl, rfl⟩ := created
  exact ⟨rfl, inserted⟩

theorem createRecord_eq_none_iff (new : fresh.id ∉ store.issued) :
    createRecord store request fresh = none ↔ ∃ old, store.findKey? request.key = some old := by
  rw [createRecord, Option.map_eq_none_iff, Table.insert?_eq_none_iff new, Record.key_ofRequest]

theorem upsertRecord_cases (store : Store) (request : RecordRequest) (fresh : Fresh) :
    (∃ after record, createRecord store request fresh = some (after, record) ∧
      upsertRecord store request fresh = (after, .returned record true)) ∨
    upsertRecord store request fresh = (store, selectExisting store request) ∨
    upsertRecord store request fresh = (store, .dataError) := by
  unfold upsertRecord
  split
  next =>
    cases createRecord store request fresh with
    | some result => exact .inl ⟨result.1, result.2, rfl, rfl⟩
    | none => exact .inr (.inl rfl)
  next => exact .inr (.inr rfl)

theorem createRecordsBatch_eq (store : Store) (rows : List (RecordRequest × Fresh)) :
    createRecordsBatch store rows =
      ((rows.map fun (request, fresh) => Record.ofRequest request fresh).foldlM Table.insert? store).map
        fun after => (after, rows.map fun (request, fresh) => Record.ofRequest request fresh) := by
  induction rows generalizing store with
  | nil => rfl
  | cons row rest ih =>
    obtain ⟨request, fresh⟩ := row
    cases inserted : store.insert? (Record.ofRequest request fresh) with
    | none => simp [createRecordsBatch, createRecord, inserted]
    | some next =>
      simp only [createRecordsBatch, createRecord, inserted, ih, Option.map_some, Option.bind_eq_bind,
        Option.bind_some, List.map_cons, List.foldlM_cons, Option.pure_def]
      cases (rest.map fun (request, fresh) => Record.ofRequest request fresh).foldlM Table.insert? next <;> rfl

theorem createRecordsBatch_eq_some {rows : List (RecordRequest × Fresh)} {records : List Record}
    (created : createRecordsBatch store rows = some (after, records)) :
    records = rows.map (fun row => Record.ofRequest row.1 row.2) ∧ records.foldlM Table.insert? store = some after := by
  rw [createRecordsBatch_eq] at created
  obtain ⟨_, inserted, same⟩ := Option.map_eq_some_iff.mp created
  cases same
  exact ⟨rfl, inserted⟩

/-- The two implementations differ in their round trips only. -/
theorem createRecordsBatchNaive_eq (store : Store) (rows : List (RecordRequest × Fresh)) :
    createRecordsBatchNaive store rows = createRecordsBatch store rows := by
  rw [createRecordsBatch_eq, createRecordsBatchNaive]
  generalize rows.map (fun (request, fresh) => Record.ofRequest request fresh) = records
  cases inserted : records.foldlM Table.insert? store with
  | none => rfl
  | some after =>
    have readBack : records.mapM (fun record => after.find? record.id) = some records :=
      Table.mapM_find? fun record member => (Table.mem_insertAll inserted).mpr (.inr member)
    simp [readBack]

theorem writeBack_cases {old new : Record} {updatedAt : DateTime}
    (wrote : writeBack store old new updatedAt = some (after, record)) :
    (after = store ∧ record = old ∧ new = old) ∨
      (new ≠ old ∧ record = { new with updatedAt := some updatedAt } ∧ store.replace? record = some after) := by
  unfold writeBack at wrote
  split at wrote
  next same => cases wrote; exact .inl ⟨rfl, rfl, same⟩
  next different =>
    simp only [Option.map_eq_some_iff, Prod.mk.injEq] at wrote
    obtain ⟨_, replacing, rfl, rfl⟩ := wrote
    exact .inr ⟨different, rfl, replacing⟩

theorem loaded_cases {change : Record → Record} {updatedAt : DateTime} {result : Option Record}
    (ran : (match store.find? recordId with
      | none => some (store, none)
      | some old => (writeBack store old (change old) updatedAt).map fun (after, written) => (after, some written)) =
        some (after, result)) :
    (after = store ∧ result = none) ∨ ∃ old written, store.find? recordId = some old ∧
      writeBack store old (change old) updatedAt = some (after, written) ∧ result = some written := by
  split at ran
  next =>
    cases ran
    exact .inl ⟨rfl, rfl⟩
  next old found =>
    obtain ⟨⟨_, written⟩, wrote, same⟩ := Option.map_eq_some_iff.mp ran
    cases same
    exact .inr ⟨old, written, found, wrote, rfl⟩

theorem updateRecord_cases {request : UpdateRecordRequest} {updatedAt : DateTime} {result : Option Record}
    (updated : updateRecord store recordId request updatedAt = some (after, result)) :
    (after = store ∧ result = none) ∨ ∃ old written, store.find? recordId = some old ∧
      writeBack store old (request.apply old) updatedAt = some (after, written) ∧ result = some written :=
  loaded_cases updated

theorem markProcessed_cases {now updatedAt : DateTime} {result : Option Record}
    (marked : markProcessed store recordId now updatedAt = some (after, result)) :
    (after = store ∧ result = none) ∨ ∃ old written, store.find? recordId = some old ∧
      writeBack store old { old with processed := true, processedAt := old.processedAt.or (some now) } updatedAt =
        some (after, written) ∧ result = some written :=
  loaded_cases marked

theorem softDeleteRecord_cases {now updatedAt : DateTime} {result : Option Record}
    (archived : softDeleteRecord store recordId now updatedAt = some (after, result)) :
    (after = store ∧ result = none) ∨ ∃ old written, store.find? recordId = some old ∧ old.Active ∧
      writeBack store old { old with deletedAt := some now } updatedAt = some (after, written) ∧
      result = some written := by
  unfold softDeleteRecord at archived
  split at archived
  next =>
    cases archived
    exact .inl ⟨rfl, rfl⟩
  next old found =>
    split at archived
    next active =>
      obtain ⟨⟨_, written⟩, wrote, same⟩ := Option.map_eq_some_iff.mp archived
      cases same
      exact .inr ⟨old, written, found, active, wrote, rfl⟩
    next =>
      cases archived
      exact .inl ⟨rfl, rfl⟩

theorem writeBack_eq_none_iff {old new : Record} {updatedAt : DateTime} :
    writeBack store old new updatedAt = none ↔
      new ≠ old ∧ ∃ other ∈ store.rows, other.key = new.key ∧ other.id ≠ new.id := by
  unfold writeBack
  split
  next same => simp only [reduceCtorEq, same, ne_eq, not_true, false_and]
  next different =>
    rw [Option.map_eq_none_iff, Table.replace?_eq_none_iff]
    exact ⟨fun taken => ⟨different, taken⟩, fun taken => taken.2⟩

/-- A row is left alone if it does not change, is not written if another row
has its key, and otherwise becomes the one row that has changed. -/
theorem writeBack_outcomes {old new : Record} (updatedAt : DateTime) (found : store.find? recordId = some old)
    (sameId : new.id = old.id) :
    (new = old ∧ writeBack store old new updatedAt = some (store, old)) ∨
    (new ≠ old ∧ (∃ other ∈ store.rows, other.key = new.key ∧ other.id ≠ recordId) ∧
      writeBack store old new updatedAt = none) ∨
    (new ≠ old ∧ (∀ other ∈ store.rows, other.key = new.key → other.id = recordId) ∧
      ∃ after, writeBack store old new updatedAt = some (after, { new with updatedAt := some updatedAt }) ∧
        ∀ id, after.find? id =
          if recordId = id then some { new with updatedAt := some updatedAt } else store.find? id) := by
  obtain ⟨member, rfl⟩ := Table.find?_eq_some_iff.mp found
  by_cases same : new = old
  · exact .inl ⟨same, if_pos same⟩
  · cases wrote : writeBack store old new updatedAt with
    | none =>
      obtain ⟨-, other, otherMember, sameKey, different⟩ := writeBack_eq_none_iff.mp wrote
      exact .inr (.inl ⟨same, ⟨other, otherMember, sameKey, sameId ▸ different⟩, rfl⟩)
    | some result =>
      obtain ⟨after, record⟩ := result
      rcases writeBack_cases wrote with ⟨-, -, equal⟩ | ⟨-, rfl, replacing⟩
      · exact absurd equal same
      -- The write went through, so no other row had the key.
      · refine .inr (.inr ⟨same, fun other otherMember sameKey => ?_, after, rfl, fun id => ?_⟩)
        · by_contra different
          rw [writeBack_eq_none_iff.mpr ⟨same, other, otherMember, sameKey, sameId.symm ▸ different⟩] at wrote
          cases wrote
        · rw [Table.find?_replace? replacing ⟨old, member, sameId.symm⟩]
          simp only [sameId]

end DataPipeline.Ingestor
