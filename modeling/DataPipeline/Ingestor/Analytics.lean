import DataPipeline.Ingestor.Models
import DataPipeline.Library.Grouping
import DataPipeline.Library.Instant
import DataPipeline.Library.Rounding
import Mathlib.Data.List.MinMax

/-! Hourly statistics of `ingestor/routers/analytics.py`, computed in Python and
read from the view `records_hourly_stats`.

Numbers are exact until they are rounded.
-/

set_option autoImplicit false

namespace DataPipeline.Ingestor

open Encoding Calendar Rounding

/-! ## Records with a value -/

def exactNumber : Json → Option ℚ
  | .int value => some value
  | .float (.finite negative magnitude) => some (if negative then -magnitude else magnitude)
  | _ => none

/-- A record whose `raw_data.value` is a number or missing. -/
structure Measured extends Record where
  numeric : ∀ value, Json.get rawData "value" = some value → value = .null ∨ (exactNumber value).isSome

/-- The number at `raw_data.value`, where null counts as missing. -/
def Measured.value (record : Measured) : Option ℚ := (Json.get record.rawData "value").bind exactNumber

/-- `replace(minute=0, second=0, microsecond=0)`, and `date_trunc('hour', ...)` -/
def hourOf (time : DateTime) : DateTime :=
  ⟨time.date, time.hour, 0, 0, 0, time.valid.1, by decide, by decide, by decide⟩

def Measured.hour (record : Measured) : DateTime := hourOf record.timestamp

/-- The text of `str` for a time without an offset. -/
def strTime (time : DateTime) : Text := time.date.isoformat ++ 32 :: time.timeIsoformat

/-! ## In Python -/

structure HourStats where
  hour : Text
  recordCount : Nat
  processedCount : Nat
  processedPct : Option ℚ
  avgValue : Option ℚ
  minValue : Option ℚ
  maxValue : Option ℚ
  uniqueSources : Nat
  deriving DecidableEq

/-- What the loops of `get_summary` and `_compute_stats_from_base` make of the records of one hour. -/
def hourStats (hour : DateTime) (records : List Measured) : HourStats :=
  let recordCount := records.length
  let processedCount := records.countP (·.processed)
  let values := records.filterMap Measured.value
  { hour := hour.isoformat
    recordCount
    processedCount
    processedPct :=
      if recordCount = 0 then none else some (toDecimals toEven 2 ((processedCount : ℚ) / recordCount * 100))
    avgValue := if values = [] then none else some (toDecimals toEven 4 (values.sum / values.length))
    minValue := values.min?
    maxValue := values.max?
    uniqueSources := (records.map (·.source)).dedup.length }

def hourly (records : List Measured) : List (DateTime × List Measured) :=
  Grouping.descending (Grouping.collect Measured.hour
    (records.insertionSort fun first second => first.timestamp ≤ second.timestamp))

def isRecent (now : DateTime) (hours : Nat) (time : DateTime) : Bool :=
  now.microseconds - hours * 3600000000 ≤ time.microseconds

def getSummary (rows : List Measured) (now : DateTime) (hours : Nat) : List HourStats :=
  (hourly (rows.filter fun record => record.deletedAt = none && isRecent now hours record.timestamp)).map
    fun (hour, records) => hourStats hour records

/-- In the answer, a JSON array or a string. -/
inductive SourceList where
  | array (sources : List String)
  | joined (text : String)
  deriving DecidableEq

structure StatsEntry extends HourStats where
  sourceList : SourceList
  deriving DecidableEq

def computeStatsFromBase (rows : List Measured) (limit : Nat) : List StatsEntry :=
  ((hourly (rows.filter fun record => record.deletedAt = none)).take limit).map fun (hour, records) =>
    { hourStats hour records with
      sourceList := .joined (",".intercalate
        ((records.map (·.source)).dedup.insertionSort fun first second => first ≤ second)) }

/-! ## In SQL -/

def average (values : List ℚ) : Option ℚ := if values = [] then none else some (values.sum / values.length)

/-- `ROUND((processed_count::NUMERIC / NULLIF(record_count, 0) * 100)::NUMERIC, 2)` -/
def percentage (processedCount recordCount : Nat) : Option ℚ :=
  if recordCount = 0 then none else some (toDecimals awayFromZero 2 ((processedCount : ℚ) / recordCount * 100))

structure ViewRow where
  hour : DateTime
  recordCount : Nat
  processedCount : Nat
  processedPct : Option ℚ
  avgValue : Option ℚ
  minValue : Option ℚ
  maxValue : Option ℚ
  uniqueSources : Nat
  sourceList : List String

/-- The view `records_hourly_stats` after a refresh. The database orders sources by its collation. -/
def recordsHourlyStats (collation : String → String → Bool) (rows : List Measured) : List ViewRow :=
  (Grouping.groupBy Measured.hour (rows.filter fun record => record.deletedAt = none)).map fun (hour, records) =>
    { hour
      recordCount := records.length
      processedCount := records.countP (·.processed)
      processedPct := percentage (records.countP (·.processed)) records.length
      avgValue := (average (records.map fun record => record.value.getD 0)).map (toDecimals awayFromZero 4)
      minValue := (records.filterMap Measured.value).min?
      maxValue := (records.filterMap Measured.value).max?
      uniqueSources := (records.map (·.source)).dedup.length
      sourceList := (records.map (·.source)).dedup.insertionSort fun first second => collation first second }

/-- `get_materialized_view_stats`, where the view exists. -/
def getMaterializedViewStats (view : List ViewRow) (limit : Nat) : List StatsEntry :=
  ((view.insertionSort fun first second => second.hour ≤ first.hour).take limit).map fun row =>
    { hour := strTime row.hour
      recordCount := row.recordCount
      processedCount := row.processedCount
      processedPct := row.processedPct
      avgValue := row.avgValue
      minValue := row.minValue
      maxValue := row.maxValue
      uniqueSources := row.uniqueSources
      sourceList := .array row.sourceList }

/-! ## Statistics do not depend on the order of records -/

theorem min?_perm {values others : List ℚ} (perm : values.Perm others) : values.min? = others.min? := by
  apply Option.ext
  intro least
  simp only [List.min?_eq_some_iff, perm.mem_iff]

theorem max?_perm {values others : List ℚ} (perm : values.Perm others) : values.max? = others.max? := by
  apply Option.ext
  intro greatest
  simp only [List.max?_eq_some_iff, perm.mem_iff]

theorem hourStats_perm (hour : DateTime) {records others : List Measured} (perm : records.Perm others) :
    hourStats hour records = hourStats hour others := by
  have values := perm.filterMap Measured.value
  have none : records.filterMap Measured.value = [] ↔ others.filterMap Measured.value = [] := by
    rw [← List.length_eq_zero_iff, ← List.length_eq_zero_iff, values.length_eq]
  simp only [hourStats, perm.length_eq, perm.countP_eq, values.length_eq, values.sum_eq, none, min?_perm values,
    max?_perm values, (perm.map fun record => record.source).dedup.length_eq]

theorem hourly_eq (records : List Measured) : hourly records = Grouping.groupBy Measured.hour
    (records.insertionSort fun first second => first.timestamp ≤ second.timestamp) :=
  Grouping.descending_collect _

theorem map_hourly {Value : Type} (make : DateTime → List Measured → Value) (records : List Measured)
    (invariant : ∀ hour first second, List.Perm first second → make hour first = make hour second) :
    ((hourly records).map fun group => make group.1 group.2) =
      (Grouping.groupBy Measured.hour records).map fun group => make group.1 group.2 := by
  rw [hourly_eq]
  exact Grouping.map_groupBy_perm (List.perm_insertionSort _ records) invariant

/-! ## The view and the fallback -/

variable {collation : String → String → Bool} {rows : List Measured} {limit : Nat}

/-- The view is in the order of the query on it already. -/
theorem sorted_recordsHourlyStats :
    (recordsHourlyStats collation rows).Pairwise fun first second => second.hour ≤ first.hour := by
  rw [recordsHourlyStats, List.pairwise_map]
  exact Grouping.sorted_groupBy _

theorem length_getMaterializedViewStats :
    (getMaterializedViewStats (recordsHourlyStats collation rows) limit).length =
      min limit (Grouping.groupBy Measured.hour (rows.filter fun record => record.deletedAt = none)).length := by
  rw [getMaterializedViewStats, List.length_map, List.length_take, List.length_insertionSort, recordsHourlyStats,
    List.length_map]

def HourStats.counts (stats : HourStats) : Nat × Nat × Option ℚ × Option ℚ × Nat :=
  (stats.recordCount, stats.processedCount, stats.minValue, stats.maxValue, stats.uniqueSources)

theorem counts_agree (collation : String → String → Bool) (rows : List Measured) (limit : Nat) :
    ((getMaterializedViewStats (recordsHourlyStats collation rows) limit).map fun entry => entry.toHourStats.counts) =
      (computeStatsFromBase rows limit).map fun entry => entry.toHourStats.counts := by
  have computed : ((computeStatsFromBase rows limit).map fun entry => entry.toHourStats.counts) =
      ((hourly (rows.filter fun record => record.deletedAt = none)).map
        fun group => (hourStats group.1 group.2).counts).take limit := by
    rw [computeStatsFromBase, List.map_map, List.map_take]
    rfl
  have grouped := map_hourly (fun hour records => (hourStats hour records).counts)
    (rows.filter fun record => record.deletedAt = none)
    fun hour first second perm => by rw [hourStats_perm hour perm]
  rw [computed, grouped, getMaterializedViewStats, sorted_recordsHourlyStats.insertionSort_eq, List.map_map,
    List.map_take, recordsHourlyStats, List.map_map]
  rfl

theorem sourceList_of_view {view : List ViewRow} {entry : StatsEntry}
    (listed : entry ∈ getMaterializedViewStats view limit) : ∃ sources, entry.sourceList = .array sources := by
  obtain ⟨row, -, rfl⟩ := List.mem_map.mp listed
  exact ⟨row.sourceList, rfl⟩

theorem sourceList_of_base {entry : StatsEntry} (listed : entry ∈ computeStatsFromBase rows limit) :
    ∃ text, entry.sourceList = .joined text := by
  obtain ⟨group, -, rfl⟩ := List.mem_map.mp listed
  exact ⟨_, rfl⟩

/-- A caller cannot tell which path has answered exactly if there is nothing to answer. -/
theorem fallback_agrees_iff (collation : String → String → Bool) (rows : List Measured) (limit : Nat) :
    getMaterializedViewStats (recordsHourlyStats collation rows) limit = computeStatsFromBase rows limit ↔
      limit = 0 ∨ ∀ record ∈ rows, ¬ record.Active := by
  have sameLength : (getMaterializedViewStats (recordsHourlyStats collation rows) limit).length =
      (computeStatsFromBase rows limit).length := by
    have lengths := congrArg List.length (counts_agree collation rows limit)
    rwa [List.length_map, List.length_map] at lengths
  have nothing : getMaterializedViewStats (recordsHourlyStats collation rows) limit = [] ↔
      limit = 0 ∨ ∀ record ∈ rows, ¬ record.Active := by
    rw [← List.length_eq_zero_iff, length_getMaterializedViewStats, Nat.min_eq_zero_iff, List.length_eq_zero_iff,
      Grouping.groupBy_eq_nil_iff, List.filter_eq_nil_iff]
    simp only [decide_eq_true_eq, Record.Active]
  rw [← nothing]
  constructor
  · intro same
    rw [List.eq_nil_iff_forall_not_mem]
    intro entry listed
    -- One path lists the sources in an array, the other in a string.
    obtain ⟨sources, array⟩ := sourceList_of_view listed
    obtain ⟨text, joined⟩ := sourceList_of_base (same ▸ listed)
    rw [array] at joined
    cases joined
  · intro empty
    rw [empty, List.length_nil] at sameLength
    rw [empty, List.length_eq_zero_iff.mp sameLength.symm]

def measuredReading (fresh : Fresh) (source : String) (value : Option Int) : Measured where
  toRecord := Record.ofRequest
    ⟨source, january 8, value.toList.map fun value => (Text.ofString "value", .int value), []⟩ fresh
  numeric := by
    intro found listed
    cases value with
    | none => simp [Json.get, Record.ofRequest] at listed
    | some value =>
      have same : some (Json.int value) = some found := by
        rw [← listed]
        simp [Json.get, Record.ofRequest]
      cases same
      exact .inr rfl

def oneReading : List Measured := [measuredReading freshOne "sensor" (some 10)]

theorem fallback_differs :
    getMaterializedViewStats (recordsHourlyStats (fun first second => first ≤ second) oneReading) 24 ≠
      computeStatsFromBase oneReading 24 := by
  intro same
  have lists := congrArg (List.map StatsEntry.sourceList) same
  revert lists
  decide +kernel

end DataPipeline.Ingestor
