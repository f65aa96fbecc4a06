import DataPipeline.Ingestor.Listing

/-! Archived records under every operation of `ingestor/crud.py`.

Queries select active rows only. Operations that load a row by its id have to
look at `deleted_at` themselves; archiving does, updating and marking as
processed do not.
-/

set_option autoImplicit false

namespace DataPipeline.Ingestor

open Encoding Calendar Execution

inductive CrudCall where
  | get (recordId : Int)
  | list (skip limit : Nat) (source : Option String)
  | page (cursor : Option Text) (limit : Nat) (source : Option String)
  | dateRange (start stop : DateTime) (source : Option String)
  | tagCounts (naive : Bool) (limit : Nat)
  | enrich (recordIds : List Int) (fetched : Nat → Int → Except String (Option String × Option String))
  | createBatchNaive (rows : List (RecordRequest × Fresh))
  | write (operation : Operation)

inductive CrudReply where
  | record (found : Option Record)
  | records (records : List Record)
  | tagCounts (rows : List TagCount)
  | enriched (rows : List EnrichedRecord)
  | upserted (result : Upserted)
  | raised

/-- The rows of the store after a write and its answer; a failed write is rolled back. -/
def answered {α : Type} (store : Store) (answer : α → CrudReply) : Option (Store × α) → Store × CrudReply
  | some (after, value) => (after, answer value)
  | none => (store, .raised)

namespace CrudCall

variable (depth : Nat)

def run (store : Store) : CrudCall → Store × CrudReply
  | .get recordId => (store, .record (getRecord store recordId))
  | .list skip limit source => (store, .records (getRecords store skip limit source).1)
  | .page cursor limit source =>
    match getRecordsCursorPaginated depth store cursor limit source with
    | .ok found => (store, .records found.records)
    | .error _ => (store, .raised)
  | .dateRange start stop source => (store, .records (getRecordsByDateRange store start stop source))
  | .tagCounts naive limit =>
    (store, .tagCounts (if naive then getRecordsWithTagCountsNaive store limit else getRecordsWithTagCounts store limit))
  | .enrich recordIds fetched => (store, .enriched (enrichRecordsConcurrent store recordIds fetched))
  | .createBatchNaive rows => answered store .records (createRecordsBatchNaive store rows)
  | .write (.create request fresh) => answered store (fun record => .records [record]) (createRecord store request fresh)
  | .write (.createBatch rows) => answered store .records (createRecordsBatch store rows)
  | .write (.upsert request fresh) =>
    ((upsertRecord store request fresh).1, .upserted (upsertRecord store request fresh).2)
  | .write (.update recordId request updatedAt) =>
    answered store .record (updateRecord store recordId request updatedAt)
  | .write (.process recordId now updatedAt) => answered store .record (markProcessed store recordId now updatedAt)
  | .write (.archive recordId now updatedAt) => answered store .record (softDeleteRecord store recordId now updatedAt)
  | .write (.delete recordId) => ((deleteRecord store recordId).1, .record (deleteRecord store recordId).2)

def newIds : CrudCall → List Int
  | .createBatchNaive rows => rows.map fun row => row.2.id
  | .write operation => operation.newIds
  | _ => []

def target : CrudCall → Option Int
  | .get recordId | .write (.update recordId _ _) | .write (.process recordId _ _) | .write (.archive recordId _ _) |
    .write (.delete recordId) => some recordId
  | _ => none

/-- The record that a call loads and writes without looking at `deleted_at`. -/
def bypasses : CrudCall → Option Int
  | .write (.update recordId _ _) | .write (.process recordId _ _) => some recordId
  | _ => none

def hardDeletes : CrudCall → Option Int
  | .write (.delete recordId) => some recordId
  | _ => none

end CrudCall

def CrudReply.Shows (id : Int) : CrudReply → Prop
  | .record found => ∃ shown, found = some shown ∧ shown.id = id
  | .records listed => ∃ shown ∈ listed, shown.id = id
  | .tagCounts rows => ∃ row ∈ rows, row.id = id
  | .enriched rows => ∃ row ∈ rows, row.recordId = id ∧ row ≠ notFound id
  | .upserted (.returned shown _) => shown.id = id
  | .upserted .assertionError | .upserted .dataError | .raised => False

def crudMachine (depth : Nat) : Machine Store CrudCall where
  step store call :=
    if call.newIds.Nodup ∧ ∀ id ∈ call.newIds, id ∉ store.issued then some (call.run depth store).1 else none

/-- The call does not find the record and leaves its row as it is. -/
def Frozen (depth : Nat) (store : Store) (record : Record) (call : CrudCall) : Prop :=
  (call.target = some record.id → (call.run depth store).2 = .record none) ∧
  ¬ (call.run depth store).2.Shows record.id ∧
  (call.run depth store).1.find? record.id = some record

/-! ## One call -/

variable {depth : Nat} {store after : Store} {record : Record} {call : CrudCall}

theorem not_shows_none {id : Int} : ¬ (CrudReply.record none).Shows id := by
  rintro ⟨shown, none, -⟩
  cases none

theorem id_of_writeBack {old new written : Record} {updatedAt : DateTime}
    (wrote : writeBack store old new updatedAt = some (after, written)) (sameId : new.id = old.id) :
    written.id = old.id := by
  rcases writeBack_cases wrote with ⟨-, rfl, -⟩ | ⟨-, rfl, -⟩
  · rfl
  · exact sameId

theorem frozen_of_other {old new : Record} {recordId : Int} {updatedAt : DateTime}
    (present : record ∈ store.rows) (found : store.find? recordId = some old) (sameId : new.id = old.id)
    (other : recordId ≠ record.id) :
    let result := answered store CrudReply.record ((writeBack store old new updatedAt).map
      fun (after, written) => (after, some written))
    ¬ result.2.Shows record.id ∧ result.1.find? record.id = some record := by
  obtain ⟨oldPresent, rfl⟩ := Table.find?_eq_some_iff.mp found
  cases wrote : writeBack store old new updatedAt with
  | none => exact ⟨id, Table.find?_of_mem present⟩
  | some result =>
    obtain ⟨after, written⟩ := result
    refine ⟨?_, ?_⟩
    · rintro ⟨shown, same, shownId⟩
      cases same
      exact other ((id_of_writeBack wrote sameId).symm.trans shownId)
    · rcases writeBack_cases wrote with ⟨rfl, -, -⟩ | ⟨-, rfl, replacing⟩
      · exact Table.find?_of_mem present
      · exact Table.find?_of_mem ((Table.mem_replace? replacing ⟨old, oldPresent, sameId.symm⟩).mpr
          (.inr ⟨present, fun same => other (sameId.symm.trans same.symm)⟩))

theorem frozen_of_inserted {rows : List (RecordRequest × Fresh)} (present : record ∈ store.rows)
    (new : ∀ id ∈ rows.map (fun row => row.2.id), id ∉ store.issued) :
    let result := answered store CrudReply.records (createRecordsBatch store rows)
    ¬ result.2.Shows record.id ∧ result.1.find? record.id = some record := by
  cases created : createRecordsBatch store rows with
  | none => exact ⟨id, Table.find?_of_mem present⟩
  | some result =>
    obtain ⟨after, records⟩ := result
    obtain ⟨rfl, inserted⟩ := createRecordsBatch_eq_some created
    refine ⟨?_, Table.find?_of_mem ((Table.mem_insertAll inserted).mpr (.inl present))⟩
    rintro ⟨shown, member, sameId⟩
    obtain ⟨⟨request, fresh⟩, listed, rfl⟩ := List.mem_map.mp member
    have sameId : fresh.id = record.id := sameId
    exact new fresh.id (List.mem_map_of_mem listed) (sameId ▸ store.ids_issued record present)

theorem frozen_of_created (request : RecordRequest) {fresh : Fresh} (present : record ∈ store.rows)
    (new : fresh.id ∉ store.issued) :
    let result := answered store (fun record => CrudReply.records [record]) (createRecord store request fresh)
    ¬ result.2.Shows record.id ∧ result.1.find? record.id = some record := by
  cases created : createRecord store request fresh with
  | none => exact ⟨id, Table.find?_of_mem present⟩
  | some result =>
    obtain ⟨after, row⟩ := result
    obtain ⟨rfl, inserted⟩ := createRecord_eq_some created
    refine ⟨?_, Table.find?_of_mem ((Table.mem_insert? inserted).mpr (.inl present))⟩
    rintro ⟨shown, listed, sameId⟩
    rw [List.mem_singleton.mp listed, Record.id_ofRequest] at sameId
    exact new (sameId ▸ store.ids_issued record present)

theorem shows_upserted (request : RecordRequest) {fresh : Fresh} (present : record ∈ store.rows)
    (archived : ¬ record.Active) (new : fresh.id ∉ store.issued) :
    ¬ (CrudReply.upserted (upsertRecord store request fresh).2).Shows record.id ∧
      (upsertRecord store request fresh).1.find? record.id = some record := by
  rcases upsertRecord_cases store request fresh with ⟨after, row, created, same⟩ | same | same <;> rw [same]
  · obtain ⟨rfl, inserted⟩ := createRecord_eq_some created
    refine ⟨fun sameId => new ?_, Table.find?_of_mem ((Table.mem_insert? inserted).mpr (.inl present))⟩
    have sameId : fresh.id = record.id := sameId
    exact sameId ▸ store.ids_issued record present
  · refine ⟨?_, Table.find?_of_mem present⟩
    cases found : store.findKey? request.key with
    | none => simp [selectExisting, found, CrudReply.Shows]
    | some old =>
      rw [selectExisting_of_taken found]
      split
      next active =>
        intro sameId
        have same := Table.eq_of_id (Table.findKey?_eq_some_iff.mp found).1 present sameId
        exact archived (same ▸ active)
      next => exact id
  · exact ⟨id, Table.find?_of_mem present⟩

theorem not_getRecord (present : record ∈ store.rows) (archived : ¬ record.Active) :
    getRecord store record.id = none := by
  rw [Option.eq_none_iff_forall_ne_some]
  intro shown found
  obtain ⟨member, sameId, active⟩ := getRecord_eq_some_iff.mp found
  exact archived (Table.eq_of_id member present sameId ▸ active)

theorem not_shown {records : List Record} (present : record ∈ store.rows) (archived : ¬ record.Active)
    (active : ∀ shown ∈ records, shown ∈ store.rows ∧ shown.Active) :
    ¬ (CrudReply.records records).Shows record.id := by
  rintro ⟨shown, listed, sameId⟩
  obtain ⟨member, active⟩ := active shown listed
  exact archived (Table.eq_of_id member present sameId ▸ active)

theorem mem_getRecordsCursorPaginated {cursor : Option Text} {limit : Nat} {source : Option String} {page : Page}
    (read : getRecordsCursorPaginated depth store cursor limit source = .ok page) {shown : Record}
    (listed : shown ∈ page.records) : shown ∈ store.rows ∧ shown.Active := by
  unfold getRecordsCursorPaginated at read
  cases decoded : (decodeCursor depth cursor).mapError PageError.cursor with
  | error error =>
    rw [decoded] at read
    cases read
  | ok data =>
    cases filtered : cursorFilter data with
    | error error =>
      simp only [decoded, filtered, bind, Except.bind] at read
      cases read
    | ok beyond =>
      simp only [decoded, filtered, bind, Except.bind, pure, Except.pure] at read
      -- However the page ends, its records are those that the query selected.
      have records : page.records = (Keyset.select Record.position (limit + 1) (store.rows.filter fun record =>
          record.deletedAt = none && beyond record && sourceFilter source record)).take limit := by
        split at read
        next =>
          split at read
          next =>
            split at read
            next => cases read; rfl
            next => cases read
          next => cases read; rfl
        next => cases read; rfl
      rw [records] at listed
      obtain ⟨present, matching⟩ := List.mem_filter.mp (Keyset.mem_of_mem_select (List.mem_of_mem_take listed))
      simp only [Bool.and_eq_true, decide_eq_true_eq] at matching
      exact ⟨present, matching.1.1⟩

theorem loaded_iff {recordId : Int} {updatedAt : DateTime} {result : Option (Store × Option Record)}
    (change : Record → Record) (sameId : ∀ old, (change old).id = old.id) (present : record ∈ store.rows)
    (loads : result = match store.find? recordId with
      | none => some (store, none)
      | some old => (writeBack store old (change old) updatedAt).map fun (after, written) => (after, some written)) :
    ((some recordId = some record.id → (answered store CrudReply.record result).2 = .record none) ∧
      ¬ (answered store CrudReply.record result).2.Shows record.id ∧
      (answered store CrudReply.record result).1.find? record.id = some record) ↔
    some recordId ≠ some record.id := by
  subst loads
  by_cases same : recordId = record.id
  · subst same
    rw [Table.find?_of_mem present]
    refine iff_of_false ?_ fun different => different rfl
    rintro ⟨missing, -⟩
    have missing := missing rfl
    dsimp only at missing
    cases wrote : writeBack store record (change record) updatedAt with
    | none =>
      rw [wrote] at missing
      cases missing
    | some result =>
      rw [wrote] at missing
      cases missing
  · have different : some recordId ≠ some record.id := fun equal => same (Option.some.inj equal)
    refine iff_of_true ⟨fun equal => absurd equal different, ?_⟩ different
    cases found : store.find? recordId with
    | none => exact ⟨not_shows_none, Table.find?_of_mem present⟩
    | some old => exact frozen_of_other present found (sameId old) same

theorem frozen_archive {recordId : Int} {now updatedAt : DateTime} (present : record ∈ store.rows)
    (archived : ¬ record.Active) : Frozen depth store record (.write (.archive recordId now updatedAt)) := by
  unfold Frozen
  simp only [CrudCall.run, CrudCall.target, softDeleteRecord]
  cases found : store.find? recordId with
  | none => exact ⟨fun _ => rfl, not_shows_none, Table.find?_of_mem present⟩
  | some old =>
    dsimp only
    split
    next active =>
      obtain ⟨oldPresent, oldId⟩ := Table.find?_eq_some_iff.mp found
      have different : recordId ≠ record.id := by
        rintro rfl
        exact archived (Table.eq_of_id oldPresent present oldId ▸ active)
      exact ⟨fun equal => absurd (Option.some.inj equal) different, frozen_of_other present found rfl different⟩
    next => exact ⟨fun _ => rfl, not_shows_none, Table.find?_of_mem present⟩

theorem frozen_delete {recordId : Int} (present : record ∈ store.rows) (different : recordId ≠ record.id) :
    Frozen depth store record (.write (.delete recordId)) := by
  refine ⟨fun equal => absurd (Option.some.inj equal) different, ?_⟩
  simp only [CrudCall.run, deleteRecord]
  cases found : store.find? recordId with
  | none => exact ⟨not_shows_none, Table.find?_of_mem present⟩
  | some old =>
    refine ⟨?_, ?_⟩
    · rintro ⟨shown, same, shownId⟩
      cases same
      exact different ((Table.find?_eq_some_iff.mp found).2.symm.trans shownId)
    · dsimp only
      rw [Table.find?_erase, if_neg different, Table.find?_of_mem present]

/-- A call that names no record by its id neither misses one nor bypasses the filter. -/
theorem frozen_iff_of_untargeted (target : call.target = none) (bypasses : call.bypasses = none)
    (notShown : ¬ (call.run depth store).2.Shows record.id)
    (kept : (call.run depth store).1.find? record.id = some record) :
    Frozen depth store record call ↔ call.bypasses ≠ some record.id := by
  rw [bypasses]
  refine iff_of_true ⟨fun named => ?_, notShown, kept⟩ (Option.some_ne_none _).symm
  rw [target] at named
  cases named

/-- Each call treats an archived record as it should exactly if it looks at `deleted_at`. -/
theorem frozen_iff (new : ∀ id ∈ call.newIds, id ∉ store.issued) (present : record ∈ store.rows)
    (archived : ¬ record.Active) (kept : call.hardDeletes ≠ some record.id) :
    Frozen depth store record call ↔ call.bypasses ≠ some record.id := by
  have found := Table.find?_of_mem present
  cases call with
  | get recordId =>
    refine iff_of_true ⟨?_, ?_, found⟩ (Option.some_ne_none _).symm
    · rintro same
      cases same
      exact congrArg CrudReply.record (not_getRecord present archived)
    · rintro ⟨shown, read, sameId⟩
      obtain ⟨member, -, active⟩ := getRecord_eq_some_iff.mp read
      exact archived (Table.eq_of_id member present sameId ▸ active)
  | list skip limit source =>
    exact frozen_iff_of_untargeted rfl rfl (not_shown present archived fun _ => mem_getRecords) found
  | page cursor limit source =>
    apply frozen_iff_of_untargeted rfl rfl
    · simp only [CrudCall.run]
      split
      next read => exact not_shown present archived fun _ => mem_getRecordsCursorPaginated read
      next => exact id
    · simp only [CrudCall.run]
      split <;> exact found
  | dateRange start stop source =>
    exact frozen_iff_of_untargeted rfl rfl (not_shown present archived fun _ => mem_getRecordsByDateRange) found
  | tagCounts naive limit =>
    refine frozen_iff_of_untargeted rfl rfl ?_ found
    rintro ⟨row, listed, sameId⟩
    rw [tagCounts_agree, ite_self] at listed
    obtain ⟨shown, member, active, rfl⟩ := mem_tagCounts listed
    exact archived (Table.eq_of_id member present sameId ▸ active)
  | enrich recordIds fetched =>
    refine frozen_iff_of_untargeted rfl rfl ?_ found
    rintro ⟨row, listed, sameId, different⟩
    obtain ⟨position, bound, rfl⟩ := List.mem_mapIdx.mp listed
    rw [recordId_enrichOne] at sameId
    rw [sameId, enrichOne_of_archived present archived] at different
    exact different rfl
  | createBatchNaive rows =>
    obtain ⟨notShown, row⟩ := frozen_of_inserted present new
    rw [← createRecordsBatchNaive_eq] at notShown row
    exact frozen_iff_of_untargeted rfl rfl notShown row
  | write operation =>
    cases operation with
    | create request fresh =>
      have new : fresh.id ∉ store.issued := new fresh.id List.mem_cons_self
      obtain ⟨notShown, row⟩ := frozen_of_created request present new
      exact frozen_iff_of_untargeted rfl rfl notShown row
    | createBatch rows =>
      obtain ⟨notShown, row⟩ := frozen_of_inserted present new
      exact frozen_iff_of_untargeted rfl rfl notShown row
    | upsert request fresh =>
      obtain ⟨notShown, row⟩ := shows_upserted request present archived (new fresh.id List.mem_cons_self)
      exact frozen_iff_of_untargeted rfl rfl notShown row
    | update recordId request updatedAt => exact loaded_iff request.apply (fun _ => rfl) present rfl
    | process recordId now updatedAt =>
      exact loaded_iff (fun old => { old with processed := true, processedAt := old.processedAt.or (some now) })
        (fun _ => rfl) present rfl
    | archive recordId now updatedAt =>
      exact iff_of_true (frozen_archive present archived) (Option.some_ne_none _).symm
    | delete recordId =>
      have different : recordId ≠ record.id := fun same => kept (congrArg some same)
      exact iff_of_true (frozen_delete present different) (Option.some_ne_none _).symm

theorem bypasses_of_hardDeletes {id : Int} (deletes : call.hardDeletes = some id) : call.bypasses = none := by
  unfold CrudCall.hardDeletes at deletes
  split at deletes
  next => rfl
  next => cases deletes

/-! ## All calls -/

/-- In every run, each call treats all archived records as missing and frozen,
except for one that it deletes for good, exactly if no call updates an archived
record or marks it as processed. -/
theorem archived_frozen_iff (depth : Nat) (calls : List CrudCall) :
    ((crudMachine depth).Every Table.empty calls fun _ before call _ =>
      ∀ record ∈ before.rows, ¬ record.Active → call.hardDeletes ≠ some record.id → Frozen depth before record call) ↔
    (crudMachine depth).Every Table.empty calls fun _ before call _ =>
      ∀ record ∈ before.rows, ¬ record.Active → call.bypasses ≠ some record.id := by
  have new : ∀ {before after : Store} {call : CrudCall}, (crudMachine depth).step before call = some after →
      ∀ id ∈ call.newIds, id ∉ before.issued := by
    intro before after call stepped
    simp only [crudMachine, Option.ite_none_right_eq_some] at stepped
    exact stepped.1.2
  constructor
  · intro every
    refine every.mono fun _ before call after _ stepped frozen record present archived => ?_
    by_cases kept : call.hardDeletes = some record.id
    · rw [bypasses_of_hardDeletes kept]
      exact nofun
    · exact (frozen_iff (new stepped) present archived kept).mp (frozen record present archived kept)
  · intro every
    refine every.mono fun _ before call after _ stepped checked record present archived kept => ?_
    exact (frozen_iff (new stepped) present archived kept).mpr (checked record present archived)

theorem archived_persists {calls : List CrudCall} (present : record ∈ store.rows) (archived : ¬ record.Active)
    (every : (crudMachine depth).Every store calls fun _ _ call _ =>
      call.bypasses ≠ some record.id ∧ call.hardDeletes ≠ some record.id)
    (ran : (crudMachine depth).run store calls = some after) : record ∈ after.rows := by
  refine Machine.invariant (fun state => record ∈ state.rows) present every ?_ ran
  intro _ before call next present checked stepped
  simp only [crudMachine, Option.ite_none_right_eq_some, Option.some.injEq] at stepped
  obtain ⟨⟨-, new⟩, rfl⟩ := stepped
  have frozen : Frozen depth before record call := (frozen_iff new present archived checked.2).mpr checked.1
  exact (Table.find?_eq_some_iff.mp frozen.2.2).1

/-- A record is created, archived, and then marked as processed. -/
theorem archived_record_processed :
    ∃ store record call, (crudMachine 1).Reachable Table.empty store ∧ record ∈ store.rows ∧ ¬ record.Active ∧
      call.hardDeletes ≠ some record.id ∧ (call.run 1 store).1.find? record.id ≠ some record ∧
      ¬ Frozen 1 store record call := by
  have thawed : ((crudMachine 1).run Table.empty [.write (.create reading freshOne),
      .write (.archive 1 (january 10) (january 10))]).any fun store => (store.find? 1).any fun record =>
        ¬ record.Active ∧
          ((CrudCall.write (.process 1 (january 11) (january 11))).run 1 store).1.find? 1 ≠ some record := by
    decide +kernel
  obtain ⟨store, ran, thawed⟩ := (Option.any_eq_true _ _).mp thawed
  obtain ⟨record, found, thawed⟩ := (Option.any_eq_true _ _).mp thawed
  obtain ⟨archived, changed⟩ := of_decide_eq_true thawed
  obtain ⟨present, named⟩ := Table.find?_eq_some_iff.mp found
  rw [← named] at changed
  refine ⟨store, record, .write (.process record.id (january 11) (january 11)), ⟨_, ran⟩, present, archived, nofun,
    changed, ?_⟩
  rintro ⟨-, -, same⟩
  exact changed same

end DataPipeline.Ingestor
