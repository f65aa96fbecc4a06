import DataPipeline.Ingestor.Crud
import DataPipeline.Library.Inserting

/-! The two ways of inserting a batch, statement by statement.

One sends a single INSERT. The other hands objects to the session, which on commit
inserts them by as many statements as it likes and then reads each of them back.
Either names the columns of a request, and the others get their defaults.
-/

set_option autoImplicit false

namespace DataPipeline.Ingestor.BatchInsert

open Calendar

structure Columns where
  source : Option String := none
  timestamp : Option DateTime := none
  rawData : Option (List (Encoding.Text × Json)) := none
  tags : Option (List String) := none
  processed : Option Bool := none
  processedAt : Option DateTime := none
  createdAt : Option DateTime := none
  updatedAt : Option DateTime := none
  deletedAt : Option DateTime := none

/-- The row with the defaults of the columns that are left out. None stands for a column
that may not be left out. -/
def Columns.row (columns : Columns) (fresh : Fresh) : Option Record := do
  let source ← columns.source
  let timestamp ← columns.timestamp
  let rawData ← columns.rawData
  return {
    id := fresh.id
    source
    timestamp
    rawData
    tags := columns.tags.getD []
    processed := columns.processed.getD false
    processedAt := columns.processedAt
    createdAt := columns.createdAt.getD fresh.createdAt
    updatedAt := some (columns.updatedAt.getD fresh.updatedAt)
    deletedAt := columns.deletedAt
    id_fits := fresh.id_fits }

abbrev Session := Table.Session Record.id Record.key

/-- One INSERT, and what its RETURNING gives. -/
def execute (session : Session) (values : List (Columns × Fresh)) : Option (Session × List Record) := do
  let records ← values.mapM fun (columns, fresh) => columns.row fresh
  let session ← session.insert records
  return (session, records)

/-- The unit of work, with the statements over which it spreads its objects. -/
structure UnitOfWork where
  statements : List (Columns × Fresh) → List (List (Columns × Fresh))
  flatten_statements : ∀ pending, (statements pending).flatten = pending

def UnitOfWork.flush (unitOfWork : UnitOfWork) (session : Session) (pending : List (Columns × Fresh)) :
    Option Session :=
  (unitOfWork.statements pending).foldlM (fun session values => (execute session values).map Prod.fst) session

/-- `create_records_batch`: the store after it, and the records unless it has raised. -/
def createRecordsBatch (store : Store) (requests : List (RecordRequest × Fresh)) : Store × Option (List Record) :=
  if requests = [] then (store, some [])
  else
    let insertData := requests.map fun (request, fresh) =>
      (({ source := some request.source, timestamp := some request.timestamp, rawData := some request.data,
          tags := some request.tags } : Columns), fresh)
    match execute (.start store) insertData with
    -- The session is closed without a commit.
    | none => (store, none)
    | some (session, records) => (session.commit, some records)

def createRecordsBatchNaive (unitOfWork : UnitOfWork) (store : Store) (requests : List (RecordRequest × Fresh)) :
    Store × Option (List Record) :=
  if requests = [] then (store, some [])
  else
    let records := requests.map fun (request, fresh) =>
      (({ source := some request.source, timestamp := some request.timestamp, rawData := some request.data,
          tags := some request.tags } : Columns), fresh)
    match unitOfWork.flush (.start store) records with
    | none => (store, none)
    | some session =>
      let after : Store := session.commit
      (after, records.mapM fun (_, fresh) => after.find? fresh.id)

structure Content where
  source : String
  timestamp : DateTime
  rawData : List (Encoding.Text × Json)
  tags : List String
  processed : Bool
  processedAt : Option DateTime
  updated : Bool
  deletedAt : Option DateTime
  deriving DecidableEq

def content (record : Record) : Content where
  source := record.source
  timestamp := record.timestamp
  rawData := record.rawData
  tags := record.tags
  processed := record.processed
  processedAt := record.processedAt
  updated := record.updatedAt.isSome
  deletedAt := record.deletedAt

/-! ## Both insert the rows of the requests -/

variable {store : Store} {requests : List (RecordRequest × Fresh)} {session : Session}

def named (row : RecordRequest × Fresh) : Columns × Fresh :=
  ({ source := some row.1.source, timestamp := some row.1.timestamp, rawData := some row.1.data,
     tags := some row.1.tags }, row.2)

theorem mapM_row (requests : List (RecordRequest × Fresh)) :
    (requests.map named).mapM (fun (columns, fresh) => columns.row fresh) =
      some (requests.map fun row => Record.ofRequest row.1 row.2) := by
  induction requests with
  | nil => rfl
  | cons row requests ih =>
    rw [List.map_cons, List.mapM_cons, ih]
    rfl

theorem execute_named (session : Session) (requests : List (RecordRequest × Fresh)) :
    execute session (requests.map named) =
      (session.insert (requests.map fun row => Record.ofRequest row.1 row.2)).map fun after =>
        (after, requests.map fun row => Record.ofRequest row.1 row.2) := by
  rw [execute, mapM_row]
  cases inserted : session.insert (requests.map fun row => Record.ofRequest row.1 row.2) <;>
    simp [inserted]

/-- It does not matter how the rows are spread over statements. -/
theorem foldlM_execute (statements : List (List (Columns × Fresh))) (session : Session)
    (all : statements.flatten = requests.map named) :
    statements.foldlM (fun session values => (execute session values).map Prod.fst) session =
      session.insert (requests.map fun row => Record.ofRequest row.1 row.2) := by
  induction statements generalizing session requests with
  | nil =>
    rw [List.flatten_nil, eq_comm, List.map_eq_nil_iff] at all
    rw [all]
    exact (Table.Session.insert_nil session).symm
  | cons values statements ih =>
    obtain ⟨first, rest, rfl, rfl, later⟩ := List.append_eq_map_iff.mp all
    rw [List.foldlM_cons, execute_named, List.map_append, Table.Session.insert_append]
    cases inserted : session.insert (first.map fun row => Record.ofRequest row.1 row.2) with
    | none => rfl
    | some next =>
      simp only [Option.map_some, Option.bind_eq_bind, Option.bind_some]
      exact ih next later.symm

/-- What the model of whole operations says, with the store that a failure leaves. -/
def atOnce (store : Store) : Option (Store × List Record) → Store × Option (List Record)
  | none => (store, none)
  | some (after, records) => (after, some records)

theorem insertAll_eq (store : Store) (requests : List (RecordRequest × Fresh)) :
    Ingestor.createRecordsBatch store requests =
      (Table.insertAll store (requests.map fun row => Record.ofRequest row.1 row.2)).map fun after =>
        (after, requests.map fun row => Record.ofRequest row.1 row.2) := createRecordsBatch_eq store requests

theorem createRecordsBatch_atOnce (store : Store) (requests : List (RecordRequest × Fresh)) :
    createRecordsBatch store requests = atOnce store (Ingestor.createRecordsBatch store requests) := by
  unfold createRecordsBatch
  split
  next empty => rw [empty]; rfl
  next =>
    change (match execute (.start store) (requests.map named) with
      | none => (store, none)
      | some (session, records) => (session.commit, some records)) = _
    rw [execute_named, insertAll_eq, Table.Session.insert, Table.Session.start]
    cases Table.insertAll store (requests.map fun row => Record.ofRequest row.1 row.2) <;> rfl

theorem createRecordsBatchNaive_atOnce (unitOfWork : UnitOfWork) (store : Store)
    (requests : List (RecordRequest × Fresh)) : createRecordsBatchNaive unitOfWork store requests =
      atOnce store (Ingestor.createRecordsBatchNaive store requests) := by
  rw [createRecordsBatchNaive_eq, insertAll_eq]
  unfold createRecordsBatchNaive
  split
  next empty => rw [empty]; rfl
  next =>
    change (match unitOfWork.flush (.start store) (requests.map named) with
      | none => (store, none)
      | some session => ((session.commit : Store), (requests.map named).mapM fun (row : Columns × Fresh) =>
          Table.find? session.commit row.2.id)) = _
    rw [UnitOfWork.flush, foldlM_execute _ _ (unitOfWork.flatten_statements _), Table.Session.insert,
      Table.Session.start]
    cases inserted : Table.insertAll store (requests.map fun row => Record.ofRequest row.1 row.2) with
    | none => rfl
    | some after =>
      have readBack : (requests.map fun row => Record.ofRequest row.1 row.2).mapM
          (fun record => after.find? record.id) = some (requests.map fun row => Record.ofRequest row.1 row.2) :=
        Table.mapM_find? fun record member => (Table.mem_insertAll inserted).mpr (.inr member)
      rw [List.mapM_map] at readBack
      refine congrArg (Prod.mk after) (Eq.trans ?_ readBack)
      rw [List.mapM_map]
      rfl

/-! ## Both succeed or both fail -/

/-- What the database gives to the rows of a batch: ids that no row has had. -/
structure Assigned (store : Store) (requests : List RecordRequest) (given : List Fresh) : Prop where
  enough : given.length = requests.length
  distinct : (given.map Fresh.id).Nodup
  new : ∀ fresh ∈ given, fresh.id ∉ store.issued

section Assigned

variable {requests : List RecordRequest} {given others : List Fresh}

def rowsOf (requests : List RecordRequest) (given : List Fresh) : List Record :=
  (requests.zip given).map fun row => Record.ofRequest row.1 row.2

theorem ids_rowsOf (assigned : Assigned store requests given) :
    (rowsOf requests given).map Record.id = given.map Fresh.id := by
  rw [rowsOf, List.map_map]
  calc (requests.zip given).map (Record.id ∘ fun row => Record.ofRequest row.1 row.2)
      = ((requests.zip given).map Prod.snd).map Fresh.id := by rw [List.map_map]; rfl
    _ = given.map Fresh.id := by rw [List.map_snd_zip assigned.enough.le]

theorem map_rowsOf {Field : Type} (field : Record → Field) (requested : RecordRequest → Field)
    (same : ∀ request fresh, field (Record.ofRequest request fresh) = requested request)
    (assigned : Assigned store requests given) : (rowsOf requests given).map field = requests.map requested := by
  rw [rowsOf, List.map_map]
  calc (requests.zip given).map (field ∘ fun row => Record.ofRequest row.1 row.2)
      = ((requests.zip given).map Prod.fst).map requested := by
        rw [List.map_map]
        exact List.map_congr_left fun row _ => same row.1 row.2
    _ = requests.map requested := by rw [List.map_fst_zip assigned.enough.ge]

theorem keys_rowsOf (assigned : Assigned store requests given) :
    (rowsOf requests given).map Record.key = requests.map RecordRequest.key :=
  map_rowsOf Record.key RecordRequest.key Record.key_ofRequest assigned

theorem content_rowsOf (fresh : Fresh) (assigned : Assigned store requests given) :
    (rowsOf requests given).map content = requests.map fun request => content (Record.ofRequest request fresh) :=
  map_rowsOf content _ (fun _ _ => rfl) assigned

theorem length_rowsOf (assigned : Assigned store requests given) :
    (rowsOf requests given).length = requests.length := by
  rw [rowsOf, List.length_map, List.length_zip, assigned.enough, Nat.min_self]

theorem sameContent (first : Assigned store requests given) (second : Assigned store requests others) :
    (rowsOf requests given).map content = (rowsOf requests others).map content := by
  cases given with
  | nil =>
    have none : requests = [] := List.eq_nil_of_length_eq_zero first.enough.symm
    rw [none]
    rfl
  | cons fresh given => rw [content_rowsOf fresh first, content_rowsOf fresh second]

theorem new_rowsOf (assigned : Assigned store requests given) :
    ∀ row ∈ rowsOf requests given, row.id ∉ store.issued := by
  intro row member
  have listed := List.mem_map_of_mem (f := Record.id) member
  rw [ids_rowsOf assigned] at listed
  obtain ⟨fresh, among, same⟩ := List.mem_map.mp listed
  exact same ▸ assigned.new fresh among

theorem distinct_rowsOf (assigned : Assigned store requests given) :
    ((rowsOf requests given).map Record.id).Nodup := by
  rw [ids_rowsOf assigned]
  exact assigned.distinct

theorem createRecordsBatch_zip (store : Store) (requests : List RecordRequest) (given : List Fresh) :
    createRecordsBatch store (requests.zip given) =
      atOnce store
        ((Table.insertAll store (rowsOf requests given)).map fun after => (after, rowsOf requests given)) := by
  rw [createRecordsBatch_atOnce, insertAll_eq]
  rfl

theorem createRecordsBatchNaive_zip (unitOfWork : UnitOfWork) (store : Store) (requests : List RecordRequest)
    (given : List Fresh) : createRecordsBatchNaive unitOfWork store (requests.zip given) =
      atOnce store
        ((Table.insertAll store (rowsOf requests given)).map fun after => (after, rowsOf requests given)) := by
  rw [createRecordsBatchNaive_atOnce, createRecordsBatchNaive_eq, insertAll_eq]
  rfl

/-- Whatever ids and times the database assigns, and however the session spreads its
objects over statements. -/
theorem batches_agree (unitOfWork : UnitOfWork) (first : Assigned store requests given)
    (second : Assigned store requests others) :
    (createRecordsBatch store (requests.zip given) = (store, none) ∧
      createRecordsBatchNaive unitOfWork store (requests.zip others) = (store, none)) ∨
    ∃ optimised naive : Store, ∃ records recordsNaive : List Record,
      createRecordsBatch store (requests.zip given) = (optimised, some records) ∧
      createRecordsBatchNaive unitOfWork store (requests.zip others) = (naive, some recordsNaive) ∧
      records.length = requests.length ∧ recordsNaive.length = requests.length ∧
      optimised.rows = store.rows ++ records ∧ naive.rows = store.rows ++ recordsNaive ∧
      optimised.rows.map content = naive.rows.map content := by
  have outcome : (Table.insertAll store (rowsOf requests given)).isSome =
      (Table.insertAll store (rowsOf requests others)).isSome := by
    refine Table.insertAll_congr ?_ (distinct_rowsOf first) (new_rowsOf first)
      (distinct_rowsOf second) (new_rowsOf second)
    rw [keys_rowsOf first, keys_rowsOf second]
  rw [createRecordsBatch_zip, createRecordsBatchNaive_zip]
  cases inserted : Table.insertAll store (rowsOf requests given) with
  | none =>
    rw [inserted, Option.isSome_none, eq_comm, Option.isSome_eq_false_iff, Option.isNone_iff_eq_none] at outcome
    rw [outcome]
    exact .inl ⟨rfl, rfl⟩
  | some optimised =>
    rw [inserted, Option.isSome_some, eq_comm, Option.isSome_iff_exists] at outcome
    obtain ⟨naive, insertedNaive⟩ := outcome
    have rows := Table.insertAll_rows inserted
    have rowsNaive := Table.insertAll_rows insertedNaive
    rw [insertedNaive]
    refine .inr ⟨optimised, naive, _, _, rfl, rfl, length_rowsOf first, length_rowsOf second, rows, rowsNaive, ?_⟩
    rw [rows, rowsNaive, List.map_append, List.map_append, sameContent first second]

end Assigned

def oneByOne : UnitOfWork where
  statements pending := pending.map fun row => [row]
  flatten_statements pending := by
    induction pending with
    | nil => rfl
    | cons row pending ih => rw [List.map_cons, List.flatten_cons, ih, List.singleton_append]

/-- The second statement fails, and takes the first row with it. -/
theorem duplicates_raise :
    createRecordsBatch Table.empty ([reading, reading].zip [freshOne, freshTwo]) = (Table.empty, none) ∧
    createRecordsBatchNaive oneByOne Table.empty ([reading, reading].zip [freshTwo, freshOne]) =
      (Table.empty, none) := by
  have first : Assigned Table.empty [reading, reading] [freshOne, freshTwo] :=
    ⟨rfl, by decide, fun _ _ => List.not_mem_nil⟩
  have second : Assigned Table.empty [reading, reading] [freshTwo, freshOne] :=
    ⟨rfl, by decide, fun _ _ => List.not_mem_nil⟩
  rcases batches_agree oneByOne first second with raised | ⟨optimised, naive, records, recordsNaive, created, _⟩
  · exact raised
  · have taken : Table.insertAll (Table.empty : Store) (rowsOf [reading, reading] [freshOne, freshTwo]) = none := by
      rw [← Option.isNone_iff_eq_none, ← Option.isSome_eq_false_iff, Bool.eq_false_iff, Ne,
        Table.insertAll_isSome_iff (distinct_rowsOf first) (new_rowsOf first), keys_rowsOf first]
      exact fun nodup => (List.nodup_cons.mp nodup).1 List.mem_cons_self
    rw [createRecordsBatch_zip, taken] at created
    cases created

end DataPipeline.Ingestor.BatchInsert
