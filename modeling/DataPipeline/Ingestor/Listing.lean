import DataPipeline.Ingestor.Pagination

/-! The readers of `ingestor/crud.py` that return several records. -/

set_option autoImplicit false

namespace DataPipeline.Ingestor

open Encoding Calendar

/-- `get_records`: one page in the order of the ids, and how many match. -/
def getRecords (store : Store) (skip limit : Nat) (source : Option String) : List Record × Nat :=
  let matching := store.rows.filter fun record => record.deletedAt = none && sourceFilter source record
  (((matching.insertionSort fun first second => first.id ≤ second.id).drop skip).take limit, matching.length)

def maxPageSize : Nat := 1000

structure PaginationMeta where
  total : Nat
  skip : Nat
  limit : Nat
  hasMore : Bool
  deriving DecidableEq

structure RecordListResponse where
  records : List RecordResponse
  pagination : PaginationMeta
  deriving DecidableEq

/-- `list_records`, or the query parameters that are out of their bounds. -/
def listRecords (store : Store) (skip limit : Int) (source : Option String) :
    Except (List String) RecordListResponse :=
  let refused := (if 0 ≤ skip then [] else ["skip"]) ++
    (if 1 ≤ limit ∧ limit ≤ maxPageSize then [] else ["limit"])
  if refused = [] then
    let (records, total) := getRecords store skip.toNat limit.toNat source
    .ok ⟨records.map RecordResponse.modelValidate, total, skip.toNat, limit.toNat, skip + limit < total⟩
  else .error refused

/-- `get_records_by_date_range`, which includes the start and not the end; latest first. -/
def getRecordsByDateRange (store : Store) (start stop : DateTime) (source : Option String) : List Record :=
  (store.rows.filter fun record => record.deletedAt = none && start ≤ record.timestamp && record.timestamp < stop &&
    sourceFilter source record).insertionSort fun first second => second.position ≤ first.position

structure TagCount where
  id : Int
  source : String
  timestamp : Text
  tagCount : Nat
  deriving DecidableEq

def Record.tagCount (record : Record) : TagCount :=
  ⟨record.id, record.source, record.timestamp.isoformat, record.tags.length⟩

/-- `get_records_with_tag_counts_naive`, where the loop runs over whole records. -/
def getRecordsWithTagCountsNaive (store : Store) (limit : Nat) : List TagCount :=
  let records := ((store.rows.filter fun record => record.deletedAt = none).insertionSort
    fun first second => second.id ≤ first.id).take limit
  records.map Record.tagCount

/-- `get_records_with_tag_counts`, where the query selects four columns. -/
def getRecordsWithTagCounts (store : Store) (limit : Nat) : List TagCount :=
  let rows := (((store.rows.filter fun record => record.deletedAt = none).insertionSort
    fun first second => second.id ≤ first.id).take limit).map
      fun record => (record.id, record.source, record.timestamp, record.tags)
  rows.map fun (id, source, timestamp, tags) => ⟨id, source, timestamp.isoformat, tags.length⟩

structure EnrichedRecord where
  recordId : Int
  source : String
  externalTitle : Option String
  externalBody : Option String
  enriched : Bool
  error : Option String
  deriving DecidableEq

/-- The post that stands in for external data of a record. -/
def postId (recordId : Int) : Int := if recordId % 100 = 0 then 1 else recordId % 100

def notFound (recordId : Int) : EnrichedRecord :=
  ⟨recordId, "unknown", none, none, false, some ("Record " ++ toString recordId ++ " not found")⟩

/-- `enrich_one`; `fetched` is the title and the body that came back, or the
text of the exception that was raised on the way. -/
def enrichOne (records : List Record) (fetched : Int → Except String (Option String × Option String))
    (recordId : Int) : EnrichedRecord :=
  match records.find? (·.id = recordId) with
  | none => notFound recordId
  | some record =>
    match fetched (postId recordId) with
    | .ok (title, body) => ⟨recordId, record.source, title, body, true, none⟩
    | .error message => ⟨recordId, record.source, none, none, false, some message⟩

/-- `enrich_records_concurrent`; each requested position has a fetch of its own. -/
def enrichRecordsConcurrent (store : Store) (recordIds : List Int)
    (fetched : Nat → Int → Except String (Option String × Option String)) : List EnrichedRecord :=
  let records := store.rows.filter fun record => record.id ∈ recordIds && record.deletedAt = none
  recordIds.mapIdx fun position recordId => enrichOne records (fetched position) recordId

variable {store : Store} {record : Record} {limit : Nat}

theorem mem_getRecords {skip : Nat} {source : Option String}
    (member : record ∈ (getRecords store skip limit source).1) : record ∈ store.rows ∧ record.Active := by
  have sorted := (List.mem_insertionSort _).mp (List.mem_of_mem_drop (List.mem_of_mem_take member))
  obtain ⟨present, matching⟩ := List.mem_filter.mp sorted
  simp only [Bool.and_eq_true, decide_eq_true_eq] at matching
  exact ⟨present, matching.1⟩

theorem mem_getRecordsByDateRange {start stop : DateTime} {source : Option String}
    (member : record ∈ getRecordsByDateRange store start stop source) : record ∈ store.rows ∧ record.Active := by
  obtain ⟨present, matching⟩ := List.mem_filter.mp ((List.mem_insertionSort _).mp member)
  simp only [Bool.and_eq_true, decide_eq_true_eq] at matching
  exact ⟨present, matching.1.1.1⟩

theorem listRecords_eq (store : Store) (skip limit : Nat) (source : Option String) (positive : 1 ≤ limit)
    (bounded : limit ≤ maxPageSize) :
    listRecords store skip limit source =
      .ok ⟨(getRecords store skip limit source).1.map RecordResponse.modelValidate,
        (getRecords store skip limit source).2, skip, limit, (skip + limit : Int) <
          (getRecords store skip limit source).2⟩ := by
  have fits : (1 : Int) ≤ limit ∧ (limit : Int) ≤ maxPageSize := ⟨by omega, by omega⟩
  simp [listRecords, fits]

theorem tagCounts_agree (store : Store) (limit : Nat) :
    getRecordsWithTagCounts store limit = getRecordsWithTagCountsNaive store limit := by
  rw [getRecordsWithTagCounts, getRecordsWithTagCountsNaive, List.map_map]
  rfl

theorem mem_tagCounts {row : TagCount} (member : row ∈ getRecordsWithTagCountsNaive store limit) :
    ∃ record ∈ store.rows, record.Active ∧ record.tagCount = row := by
  obtain ⟨record, listed, same⟩ := List.mem_map.mp member
  obtain ⟨present, active⟩ := List.mem_filter.mp ((List.mem_insertionSort _).mp (List.mem_of_mem_take listed))
  exact ⟨record, present, of_decide_eq_true active, same⟩

theorem recordId_enrichOne (records : List Record) (fetched : Int → Except String (Option String × Option String))
    (recordId : Int) : (enrichOne records fetched recordId).recordId = recordId := by
  unfold enrichOne
  split
  next => rfl
  next => split <;> rfl

theorem enrichOne_of_archived {recordIds : List Int} {fetched : Int → Except String (Option String × Option String)}
    (present : record ∈ store.rows) (archived : ¬ record.Active) :
    enrichOne (store.rows.filter fun row => row.id ∈ recordIds && row.deletedAt = none) fetched record.id =
      notFound record.id := by
  unfold enrichOne
  cases found : (store.rows.filter fun row => row.id ∈ recordIds && row.deletedAt = none).find?
      (·.id = record.id) with
  | none => rfl
  | some other =>
    have sameId : other.id = record.id := by simpa using List.find?_some found
    obtain ⟨otherPresent, active⟩ := List.mem_filter.mp (List.mem_of_find?_eq_some found)
    simp only [Bool.and_eq_true, decide_eq_true_eq] at active
    exact absurd (Table.eq_of_id otherPresent present sameId ▸ active.2) archived

end DataPipeline.Ingestor
