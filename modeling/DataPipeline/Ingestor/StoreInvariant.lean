import DataPipeline.Ingestor.Crud
import DataPipeline.Ingestor.Validation

/-! What holds of every row that validated bodies can leave in the table.

A command brings a body as it arrives, which its schema checks before the
operation on the store starts. The clock does not go back between a check and
the write it allows; writes themselves may come in any order.
-/

set_option autoImplicit false

namespace DataPipeline.Ingestor

open Execution Calendar

variable (isFinal : List Char → List Char → Bool) (parse : Json → Option Stamp)

structure Body where
  raw : RawRequest
  readAt : DateTime

def Body.record (body : Body) : Except (List FieldError) RecordRequest :=
  RecordRequest.validate isFinal parse body.readAt body.raw

inductive Command where
  | create (body : Body) (fresh : Fresh)
  | createBatch (naive : Bool) (rows : List (Body × Fresh))
  | upsert (body : Body) (fresh : Fresh)
  | update (recordId : Int) (body : Body) (updatedAt : DateTime)
  | process (recordId : Int) (now updatedAt : DateTime)
  | archive (recordId : Int) (now updatedAt : DateTime)
  | delete (recordId : Int)

/-- How a command ends; only the first does not raise. -/
inductive Ending where
  | returned
  | validationError (errors : List FieldError)
  | integrityError
  | assertionError
  | dataError

/-- The rows of a batch, or the errors of all that are invalid. -/
def validateRows : List (Body × Fresh) → Except (List FieldError) (List (RecordRequest × Fresh))
  | [] => .ok []
  | (body, fresh) :: rest =>
    match body.record isFinal parse, validateRows rest with
    | .ok request, .ok requests => .ok ((request, fresh) :: requests)
    | .error errors, .ok _ => .error errors
    | .ok _, .error errors => .error errors
    | .error errors, .error others => .error (errors ++ others)

def ifValid {α : Type} (store : Store) (operation : α → Store × Ending) :
    Except (List FieldError) α → Store × Ending
  | .ok request => operation request
  | .error errors => (store, .validationError errors)

/-- The session of a failed operation closes without a commit. -/
def committed {α : Type} (store : Store) : Option (Store × α) → Store × Ending
  | some (after, _) => (after, .returned)
  | none => (store, .integrityError)

namespace Command

def run (store : Store) : Command → Store × Ending
  | .create body fresh =>
    ifValid store (fun request => committed store (createRecord store request fresh)) (body.record isFinal parse)
  | .createBatch naive rows =>
    ifValid store (fun rows => committed store
      (if naive then createRecordsBatchNaive store rows else createRecordsBatch store rows))
      (validateRows isFinal parse rows)
  | .upsert body fresh =>
    ifValid store (fun request =>
      match upsertRecord store request fresh with
      | (after, .returned _ _) => (after, .returned)
      | (after, .assertionError) => (after, .assertionError)
      | (after, .dataError) => (after, .dataError))
      (UpsertRequest.validate isFinal parse body.readAt body.raw)
  | .update recordId body updatedAt =>
    ifValid store (fun request => committed store (updateRecord store recordId request updatedAt))
      (UpdateRecordRequest.validate isFinal parse body.readAt body.raw)
  | .process recordId now updatedAt => committed store (markProcessed store recordId now updatedAt)
  | .archive recordId now updatedAt => committed store (softDeleteRecord store recordId now updatedAt)
  | .delete recordId => ((deleteRecord store recordId).1, .returned)

def bodies : Command → List Body
  | .create body _ | .upsert body _ | .update _ body _ => [body]
  | .createBatch _ rows => rows.map (·.1)
  | .process _ _ _ | .archive _ _ _ | .delete _ => []

def newIds : Command → List Int
  | .create _ fresh | .upsert _ fresh => [fresh.id]
  | .createBatch _ rows => rows.map fun row => row.2.id
  | .update _ _ _ | .process _ _ _ | .archive _ _ _ | .delete _ => []

end Command

structure Timed where
  command : Command
  now : DateTime

def commandMachine : Machine Store Timed where
  step store timed :=
    if (∀ body ∈ timed.command.bodies, body.readAt ≤ timed.now) ∧
        timed.command.newIds.Nodup ∧ ∀ id ∈ timed.command.newIds, id ∉ store.issued then
      some (timed.command.run isFinal parse store).1
    else none

/-- Notes for each id when its timestamp was last written. -/
def noteWrites (writtenAt : Int → Option DateTime) (before : Store) (timed : Timed) (after : Store) :
    Int → Option DateTime :=
  fun id =>
    if (after.find? id).map Record.timestamp = (before.find? id).map Record.timestamp then writtenAt id
    else some timed.now

/-- What the validators and the coupled columns promise of a row. -/
structure RowValid (writtenAt : Option DateTime) (record : Record) : Prop where
  source : SourceValid isFinal record.source
  tags : TagsValid isFinal record.tags
  past : ∃ clock, writtenAt = some clock ∧ record.timestamp ≤ clock
  processed : record.processed = true ↔ record.processedAt.isSome

/-! ## One command -/

structure Rewrites (limit : DateTime) (old record : Record) : Prop where
  sameId : record.id = old.id
  source : record.source = old.source ∨ SourceValid isFinal record.source
  timestamp : record.timestamp = old.timestamp ∨ record.timestamp ≤ limit
  tags : record.tags = old.tags ∨ TagsValid isFinal record.tags
  processed : (record.processed = old.processed ∧ record.processedAt = old.processedAt) ∨
    (record.processed = true ∧ record.processedAt.isSome)

inductive Origin (limit : DateTime) (store : Store) (record : Record) : Prop where
  | kept (member : record ∈ store.rows)
  | inserted (request : RecordRequest) (fresh : Fresh) (valid : SourceValid isFinal request.source ∧
      request.timestamp ≤ limit ∧ TagsValid isFinal request.tags) (made : record = Record.ofRequest request fresh)
  | rewritten (old : Record) (member : old ∈ store.rows) (rewrites : Rewrites isFinal limit old record)

variable {isFinal} {parse} {store after : Store} {record row : Record} {limit : DateTime}

theorem validateRows_ok {rows : List (Body × Fresh)} {valid : List (RecordRequest × Fresh)}
    (ok : validateRows isFinal parse rows = .ok valid) {request : RecordRequest} {fresh : Fresh}
    (member : (request, fresh) ∈ valid) :
    ∃ body, (body, fresh) ∈ rows ∧ body.record isFinal parse = .ok request := by
  induction rows generalizing valid with
  | nil =>
    cases ok
    cases member
  | cons first rest ih =>
    obtain ⟨body, own⟩ := first
    rw [validateRows] at ok
    split at ok
    next accepted others =>
      cases ok
      rcases List.mem_cons.mp member with same | member
      · cases same
        exact ⟨body, List.mem_cons_self, accepted⟩
      · obtain ⟨other, listed, accepted⟩ := ih others member
        exact ⟨other, List.mem_cons_of_mem _ listed, accepted⟩
    next => cases ok
    next => cases ok
    next => cases ok

theorem mem_of_writeBack {old new : Record} {recordId : Int} {updatedAt : DateTime}
    (found : store.find? recordId = some old) (sameId : new.id = old.id)
    (wrote : writeBack store old new updatedAt = some (after, record)) (member : row ∈ after.rows) :
    row ∈ store.rows ∨ row = { new with updatedAt := some updatedAt } := by
  rcases writeBack_cases wrote with ⟨rfl, -, -⟩ | ⟨-, rfl, replacing⟩
  · exact .inl member
  · have present : ∃ old ∈ store.rows, old.id = new.id := ⟨old, (Table.find?_eq_some_iff.mp found).1, sameId.symm⟩
    rcases (Table.mem_replace? replacing present).mp member with same | ⟨kept, -⟩
    · exact .inr same
    · exact .inl kept

theorem origin_of_writeBack {old new : Record} {recordId : Int} {updatedAt : DateTime}
    (rewrites : Rewrites isFinal limit old new) (found : store.find? recordId = some old)
    (wrote : writeBack store old new updatedAt = some (after, record)) (member : row ∈ after.rows) :
    Origin isFinal limit store row := by
  rcases mem_of_writeBack found rewrites.sameId wrote member with kept | rfl
  · exact .kept kept
  -- The time of the write is no part of what a rewrite is about.
  · exact .rewritten old (Table.find?_eq_some_iff.mp found).1
      ⟨rewrites.sameId, rewrites.source, rewrites.timestamp, rewrites.tags, rewrites.processed⟩

theorem committed_rows {α : Type} {result : Option (Store × α)} (member : row ∈ (committed store result).1.rows) :
    row ∈ store.rows ∨ ∃ after value, result = some (after, value) ∧ row ∈ after.rows := by
  cases result with
  | none => exact .inl member
  | some result => exact .inr ⟨result.1, result.2, rfl, member⟩

theorem ifValid_rows {α : Type} {operation : α → Store × Ending} {validated : Except (List FieldError) α}
    (member : row ∈ (ifValid store operation validated).1.rows) :
    row ∈ store.rows ∨ ∃ request, validated = .ok request ∧ row ∈ (operation request).1.rows := by
  cases validated with
  | ok request => exact .inr ⟨request, rfl, member⟩
  | error errors => exact .inl member

theorem rewrites_apply {now : DateTime} {raw : RawRequest} {request : UpdateRecordRequest}
    (ok : UpdateRecordRequest.validate isFinal parse now raw = .ok request) (intime : now ≤ limit)
    (old : Record) : Rewrites isFinal limit old (request.apply old) := by
  obtain ⟨source, timestamp, tags⟩ := UpdateRecordRequest.validate_ok ok
  refine ⟨rfl, ?_, ?_, ?_, .inl ⟨rfl, rfl⟩⟩
  · cases given : request.source with
    | none => exact .inl (by simp [UpdateRecordRequest.apply, given])
    | some value => exact .inr (by simpa [UpdateRecordRequest.apply, given] using source value given)
  · cases given : request.timestamp with
    | none => exact .inl (by simp [UpdateRecordRequest.apply, given])
    | some value =>
      exact .inr (by simpa [UpdateRecordRequest.apply, given] using (timestamp value given).trans intime)
  · cases given : request.tags with
    | none => exact .inl (by simp [UpdateRecordRequest.apply, given])
    | some value => exact .inr (by simpa [UpdateRecordRequest.apply, given] using tags value given)

theorem mem_of_createRecord {request : RecordRequest} {fresh : Fresh}
    (created : createRecord store request fresh = some (after, record)) (member : row ∈ after.rows) :
    row ∈ store.rows ∨ row = Record.ofRequest request fresh := by
  obtain ⟨rfl, inserted⟩ := createRecord_eq_some created
  exact (Table.mem_insert? inserted).mp member

theorem origin_of_request {body : Body} {request : RecordRequest} {fresh : Fresh}
    (ok : body.record isFinal parse = .ok request) (intime : body.readAt ≤ limit) :
    Origin isFinal limit store (Record.ofRequest request fresh) := by
  obtain ⟨source, past, tags⟩ := RecordRequest.validate_ok ok
  exact .inserted request fresh ⟨source, past.trans intime, tags⟩ rfl

/-- Every row after a command was there, is new and valid, or has been rewritten by valid values. -/
theorem origin_of_run (command : Command) (intime : ∀ body ∈ command.bodies, body.readAt ≤ limit)
    (member : row ∈ (command.run isFinal parse store).1.rows) : Origin isFinal limit store row := by
  cases command with
  | create body fresh =>
    rcases ifValid_rows member with kept | ⟨request, ok, member⟩
    · exact .kept kept
    rcases committed_rows member with kept | ⟨after, record, created, member⟩
    · exact .kept kept
    rcases mem_of_createRecord created member with kept | rfl
    · exact .kept kept
    · exact origin_of_request ok (intime body List.mem_cons_self)
  | createBatch naive rows =>
    rcases ifValid_rows member with kept | ⟨valid, ok, member⟩
    · exact .kept kept
    rw [createRecordsBatchNaive_eq, ite_self] at member
    rcases committed_rows member with kept | ⟨after, records, created, member⟩
    · exact .kept kept
    obtain ⟨rfl, inserted⟩ := createRecordsBatch_eq_some created
    rcases (Table.mem_insertAll inserted).mp member with kept | made
    · exact .kept kept
    obtain ⟨⟨request, fresh⟩, listed, rfl⟩ := List.mem_map.mp made
    obtain ⟨body, given, accepted⟩ := validateRows_ok ok listed
    exact origin_of_request accepted (intime body (List.mem_map_of_mem given))
  | upsert body fresh =>
    rcases ifValid_rows member with kept | ⟨request, ok, member⟩
    · exact .kept kept
    rcases upsertRecord_cases store request fresh with ⟨after, record, created, same⟩ | same | same <;>
      rw [same] at member
    · rcases mem_of_createRecord created member with kept | rfl
      · exact .kept kept
      · exact origin_of_request ok (intime body List.mem_cons_self)
    -- Whatever is selected after the conflict, nothing has been written.
    · cases selected : selectExisting store request <;> rw [selected] at member <;> exact .kept member
    · exact .kept member
  | update recordId body updatedAt =>
    rcases ifValid_rows member with kept | ⟨request, ok, member⟩
    · exact .kept kept
    rcases committed_rows member with kept | ⟨after, result, updated, present⟩
    · exact .kept kept
    rcases updateRecord_cases updated with ⟨rfl, -⟩ | ⟨old, written, found, wrote, -⟩
    · exact .kept present
    · exact origin_of_writeBack (rewrites_apply ok (intime body List.mem_cons_self) old) found wrote present
  | process recordId now updatedAt =>
    rcases committed_rows member with kept | ⟨after, result, marked, present⟩
    · exact .kept kept
    rcases markProcessed_cases marked with ⟨rfl, -⟩ | ⟨old, written, found, wrote, -⟩
    · exact .kept present
    · have stamped : (old.processedAt.or (some now)).isSome := by cases old.processedAt <;> rfl
      apply origin_of_writeBack _ found wrote present
      exact ⟨rfl, .inl rfl, .inl rfl, .inl rfl, .inr ⟨rfl, stamped⟩⟩
  | archive recordId now updatedAt =>
    rcases committed_rows member with kept | ⟨after, result, archived, present⟩
    · exact .kept kept
    rcases softDeleteRecord_cases archived with ⟨rfl, -⟩ | ⟨old, written, found, -, wrote, -⟩
    · exact .kept present
    · apply origin_of_writeBack _ found wrote present
      exact ⟨rfl, .inl rfl, .inl rfl, .inl rfl, .inl ⟨rfl, rfl⟩⟩
  | delete recordId =>
    simp only [Command.run, deleteRecord] at member
    split at member
    next => exact .kept member
    next => exact .kept (Table.mem_erase.mp member).1

theorem committed_of_raised {α : Type} {result : Option (Store × α)}
    (raised : (committed store result).2 ≠ .returned) : (committed store result).1 = store := by
  cases result with
  | none => rfl
  | some result => exact absurd rfl raised

theorem ifValid_of_raised {α : Type} {operation : α → Store × Ending} {validated : Except (List FieldError) α}
    (keeps : ∀ request, (operation request).2 ≠ .returned → (operation request).1 = store)
    (raised : (ifValid store operation validated).2 ≠ .returned) :
    (ifValid store operation validated).1 = store := by
  cases validated with
  | ok request => exact keeps request raised
  | error errors => rfl

theorem run_of_raised (store : Store) (command : Command)
    (raised : (command.run isFinal parse store).2 ≠ .returned) : (command.run isFinal parse store).1 = store := by
  cases command with
  | create body fresh => exact ifValid_of_raised (fun _ => committed_of_raised) raised
  | createBatch naive rows => exact ifValid_of_raised (fun _ => committed_of_raised) raised
  | update recordId body updatedAt => exact ifValid_of_raised (fun _ => committed_of_raised) raised
  | process recordId now updatedAt => exact committed_of_raised raised
  | archive recordId now updatedAt => exact committed_of_raised raised
  | delete recordId => exact absurd rfl raised
  | upsert body fresh =>
    refine ifValid_of_raised (fun request raised => ?_) raised
    rcases upsertRecord_cases store request fresh with ⟨after, record, -, same⟩ | same | same
    · rw [same] at raised
      exact absurd rfl raised
    · rw [same]
      cases selectExisting store request <;> rfl
    · rw [same]

/-! ## All commands -/

theorem rowValid_of_origin {writtenAt : Int → Option DateTime} {timed : Timed}
    (held : ∀ old ∈ store.rows, RowValid isFinal (writtenAt old.id) old)
    (all : ∀ row ∈ after.rows, Origin isFinal timed.now store row) (member : row ∈ after.rows) :
    RowValid isFinal (noteWrites writtenAt store timed after row.id) row := by
  have found : after.find? row.id = some row := Table.find?_of_mem member
  -- A timestamp that differs was written just now, any other when it was before.
  have past : (∃ old ∈ store.rows, old.id = row.id ∧ row.timestamp = old.timestamp) ∨ row.timestamp ≤ timed.now →
      ∃ clock, noteWrites writtenAt store timed after row.id = some clock ∧ row.timestamp ≤ clock := by
    intro bounded
    unfold noteWrites
    rw [found, Option.map_some]
    split
    next same =>
      obtain ⟨old, present, sameTime⟩ := Option.map_eq_some_iff.mp same.symm
      obtain ⟨old_member, sameId⟩ := Table.find?_eq_some_iff.mp present
      obtain ⟨clock, noted, bound⟩ := (held old old_member).past
      exact ⟨clock, sameId ▸ noted, sameTime ▸ bound⟩
    next different =>
      rcases bounded with ⟨old, old_member, sameId, sameTime⟩ | bound
      · refine absurd ?_ different
        rw [Table.find?_eq_some_iff.mpr ⟨old_member, sameId⟩, Option.map_some, sameTime]
      · exact ⟨timed.now, rfl, bound⟩
  cases all row member with
  | kept present =>
    have valid := held row present
    exact ⟨valid.source, valid.tags, past (.inl ⟨row, present, rfl, rfl⟩), valid.processed⟩
  | inserted request fresh valid made =>
    subst made
    exact ⟨valid.1, valid.2.2, past (.inr valid.2.1), by simp [Record.ofRequest]⟩
  | rewritten old present rewrites =>
    have valid := held old present
    refine ⟨?_, ?_, past ?_, ?_⟩
    · rcases rewrites.source with same | valid
      · exact same ▸ valid.source
      · exact valid
    · rcases rewrites.tags with same | valid
      · exact same ▸ valid.tags
      · exact valid
    · exact rewrites.timestamp.imp_left fun same => ⟨old, present, rewrites.sameId.symm, same⟩
    · rcases rewrites.processed with ⟨flag, time⟩ | ⟨flag, time⟩
      · rw [flag, time]
        exact valid.processed
      · simp only [flag, time]

/-- Every row of a store that commands have produced is valid, no two have a
source and a timestamp in common, and commands that raise leave it alone. -/
theorem store_valid {timed : List Timed} (ran : (commandMachine isFinal parse).run Table.empty timed = some store) :
    (∀ row ∈ store.rows, RowValid isFinal
      ((commandMachine isFinal parse).observe noteWrites (fun _ => none) Table.empty timed row.id) row) ∧
    (∀ row ∈ store.rows, ∀ other ∈ store.rows, row.source = other.source → row.timestamp = other.timestamp →
      row = other) ∧
    ∀ command : Command, (command.run isFinal parse store).2 ≠ .returned →
      (command.run isFinal parse store).1 = store := by
  refine ⟨?_, ?_, run_of_raised store⟩
  · refine Machine.observed_of_step (fun store (writtenAt : Int → Option DateTime) =>
      ∀ row ∈ store.rows, RowValid isFinal (writtenAt row.id) row) ?_ ?_ ran
    · intro row member
      cases member
    · intro before writtenAt timed after held stepped row member
      simp only [commandMachine] at stepped
      split at stepped
      next enabled =>
        cases stepped
        exact rowValid_of_origin held (fun row member => origin_of_run timed.command enabled.1 member) member
      next => cases stepped
  · intro row member other otherMember source timestamp
    exact Table.eq_of_key member otherMember (Prod.ext source timestamp)

/-- A reading is created with a tag in capitals, moved to an earlier time, processed and archived. -/
def sampleHistory : List Timed :=
  [⟨.create ⟨⟨.value "Sensor", .missing, .value [], .value ["Hall"]⟩, january 9⟩ freshOne, january 9⟩,
    ⟨.update 1 ⟨⟨.missing, .value (.datetime ⟨january 8, some 0⟩), .null, .missing⟩, january 10⟩ (january 10),
      january 11⟩,
    ⟨.process 1 (january 12) (january 12), january 12⟩,
    ⟨.archive 1 (january 13) (january 13), january 13⟩]

theorem reading_stays_valid : ∃ store,
    (commandMachine (fun _ _ => false) fun _ => none).run Table.empty sampleHistory = some store ∧
    (store.rows.map fun row => (row.timestamp, row.tags, row.processed)) = [(january 8, ["hall"], true)] ∧
    ∀ row ∈ store.rows, ∀ other ∈ store.rows, row.source = other.source → row.timestamp = other.timestamp →
      row = other := by
  have produced : ((commandMachine (fun _ _ => false) fun _ => none).run Table.empty sampleHistory).any fun store =>
          (store.rows.map fun row => (row.timestamp, row.tags, row.processed)) = [(january 8, ["hall"], true)] := by
    decide +kernel
  obtain ⟨store, ran, rows⟩ := (Option.any_eq_true _ _).mp produced
  exact ⟨store, ran, of_decide_eq_true rows, (store_valid ran).2.1⟩

end DataPipeline.Ingestor
