import DataPipeline.Ingestor.Crud

/-! Upserts on the stores that the operations can produce. -/

set_option autoImplicit false

namespace DataPipeline.Ingestor

open Execution Calendar

/-- An operation with what the database and the clock contribute to it. -/
inductive Operation where
  | create (request : RecordRequest) (fresh : Fresh)
  | createBatch (rows : List (RecordRequest × Fresh))
  | upsert (request : RecordRequest) (fresh : Fresh)
  | update (recordId : Int) (request : UpdateRecordRequest) (updatedAt : DateTime)
  | process (recordId : Int) (now updatedAt : DateTime)
  | archive (recordId : Int) (now updatedAt : DateTime)
  | delete (recordId : Int)

namespace Operation

def newIds : Operation → List Int
  | .create _ fresh | .upsert _ fresh => [fresh.id]
  | .createBatch rows => rows.map fun row => row.2.id
  | .update _ _ _ | .process _ _ _ | .archive _ _ _ | .delete _ => []

/-- The store an operation leaves, or none if it ends in an `IntegrityError`. -/
def run (store : Store) : Operation → Option Store
  | .create request fresh => (createRecord store request fresh).map (·.1)
  | .createBatch rows => (createRecordsBatch store rows).map (·.1)
  | .upsert request fresh => some (upsertRecord store request fresh).1
  | .update recordId request updatedAt => (updateRecord store recordId request updatedAt).map (·.1)
  | .process recordId now updatedAt => (markProcessed store recordId now updatedAt).map (·.1)
  | .archive recordId now updatedAt => (softDeleteRecord store recordId now updatedAt).map (·.1)
  | .delete recordId => some (deleteRecord store recordId).1

end Operation

/-- The store under operations one after another. The database gives each new
row an id it has never given out; a failed operation changes nothing. -/
def storeMachine : Machine Store Operation where
  step store operation :=
    if operation.newIds.Nodup ∧ ∀ id ∈ operation.newIds, id ∉ store.issued then
      -- An `IntegrityError` is rolled back.
      some ((operation.run store).getD store)
    else none

/-- The upsert returns an active record of the requested source and timestamp
that can be read afterwards, and reports a creation exactly if no active record
with them existed. -/
def UpsertPost (store : Store) (request : RecordRequest) (result : Store × Upserted) : Prop :=
  ∃ record created, result.2 = .returned record created ∧ record.Active ∧
    record.source = request.source ∧ record.timestamp = request.timestamp ∧
    (created = true ↔ ∀ old ∈ store.rows, old.key = request.key → ¬ old.Active) ∧
    getRecord result.1 record.id = some record

variable {store : Store} {request : RecordRequest} {fresh : Fresh}

theorem upsertRecord_of_free (fits : request.fits = true) (new : fresh.id ∉ store.issued)
    (free : store.findKey? request.key = none) :
    ∃ after, store.insert? (Record.ofRequest request fresh) = some after ∧
      upsertRecord store request fresh = (after, .returned (Record.ofRequest request fresh) true) := by
  cases created : createRecord store request fresh with
  | none =>
    obtain ⟨old, found⟩ := (createRecord_eq_none_iff new).mp created
    rw [free] at found
    cases found
  | some result =>
    obtain ⟨after, record⟩ := result
    obtain ⟨rfl, inserted⟩ := createRecord_eq_some created
    exact ⟨after, inserted, by rw [upsertRecord, if_pos fits, created]⟩

theorem selectExisting_of_taken {old : Record} (taken : store.findKey? request.key = some old) :
    selectExisting store request = if old.Active then .returned old false else .assertionError := by
  unfold selectExisting
  rw [taken, Option.filter_some]
  by_cases active : old.deletedAt = none <;> simp [active, Record.Active]

theorem upsertRecord_of_taken (fits : request.fits = true) (new : fresh.id ∉ store.issued) {old : Record}
    (taken : store.findKey? request.key = some old) :
    upsertRecord store request fresh = (store, if old.Active then .returned old false else .assertionError) := by
  rw [upsertRecord, if_pos fits, (createRecord_eq_none_iff new).mpr ⟨old, taken⟩, ← selectExisting_of_taken taken]

theorem upsertPost_iff (fits : request.fits = true) (new : fresh.id ∉ store.issued) :
    UpsertPost store request (upsertRecord store request fresh) ↔
      ∀ old ∈ store.rows, old.key = request.key → old.Active := by
  cases found : store.findKey? request.key with
  | none =>
    have free := Table.findKey?_eq_none_iff.mp found
    obtain ⟨after, inserted, same⟩ := upsertRecord_of_free fits new found
    rw [same]
    refine ⟨fun _ old member key => absurd key (free old member), fun _ => ?_⟩
    refine ⟨Record.ofRequest request fresh, true, rfl, rfl, rfl, rfl, ?_, ?_⟩
    · simp only [true_iff]
      exact fun old member key => absurd key (free old member)
    · exact getRecord_eq_some_iff.mpr ⟨(Table.mem_insert? inserted).mpr (.inr rfl), rfl, rfl⟩
  -- The key has one row at most, so whether that row is active decides.
  | some old =>
    obtain ⟨member, key⟩ := Table.findKey?_eq_some_iff.mp found
    rw [upsertRecord_of_taken fits new found]
    constructor
    · rintro ⟨record, created, returned, -⟩ other otherMember otherKey
      rw [Table.eq_of_key otherMember member (otherKey.trans key.symm)]
      by_contra archived
      rw [if_neg archived] at returned
      cases returned
    · intro active
      have active := active old member key
      rw [if_pos active]
      obtain ⟨source, timestamp⟩ := Prod.ext_iff.mp key
      refine ⟨old, false, rfl, active, source, timestamp, ?_, getRecord_eq_some_iff.mpr ⟨member, rfl, active⟩⟩
      simp only [Bool.false_eq_true, false_iff]
      exact fun archived => archived old member key active

/-- On every store, an upsert meets its postcondition exactly if its contents fit
their columns and no archived record has the requested source and timestamp. -/
theorem upsert_postcondition_iff (store : Store) (request : RecordRequest) (fresh : Fresh)
    (new : fresh.id ∉ store.issued) :
    UpsertPost store request (upsertRecord store request fresh) ↔
      request.fits = true ∧ ∀ old ∈ store.rows, old.key = request.key → old.Active := by
  by_cases fits : request.fits = true
  · rw [upsertPost_iff fits new, and_iff_right fits]
  · rw [upsertRecord, if_neg fits]
    refine iff_of_false ?_ fun both => fits both.1
    rintro ⟨record, created, returned, -⟩
    cases returned

theorem upsert_into_empty_store :
    UpsertPost Table.empty reading (upsertRecord Table.empty reading freshOne) :=
  (upsert_postcondition_iff Table.empty reading freshOne (by decide)).mpr ⟨by decide, by simp [Table.empty]⟩

/-- A record is created and archived; then the same reading is upserted. -/
theorem upsert_after_archive_fails :
    ∃ store request fresh, storeMachine.Reachable Table.empty store ∧ request.Valid (january 10) ∧
      fresh.id ∉ store.issued ∧ (upsertRecord store request fresh).2 = .assertionError ∧
      ¬ UpsertPost store request (upsertRecord store request fresh) := by
  have archived : (storeMachine.run Table.empty [.create reading freshOne,
      .archive 1 (january 9) (january 9)]).any fun store =>
        freshTwo.id ∉ store.issued ∧
          (upsertRecord store reading freshTwo).2 = .assertionError := by decide +kernel
  obtain ⟨store, ran, archived⟩ := (Option.any_eq_true _ _).mp archived
  obtain ⟨new, fails⟩ := of_decide_eq_true archived
  refine ⟨store, reading, freshTwo, ⟨_, ran⟩, by decide, new, fails, ?_⟩
  rintro ⟨record, created, returned, -⟩
  rw [fails] at returned
  cases returned

end DataPipeline.Ingestor
