import DataPipeline.Ingestor.Analytics
import DataPipeline.Library.Ranking
import Mathlib.Data.String.Basic

/-! The rankings of `ingestor/routers/analytics.py`, which sort records in Python and number them. -/

set_option autoImplicit false

namespace DataPipeline.Ingestor

open Encoding Calendar Rounding

abbrev MeasuredStore := Table (fun record : Measured => record.id) (fun record : Measured => record.key)

/-- The key of the sort, `(value is not None, value or 0)`. -/
def Measured.sortKey (record : Measured) : Bool ×ₗ ℚ := toLex (record.value.isSome, record.value.getD 0)

structure RankedRecord where
  id : Int
  timestamp : Text
  value : Option ℚ
  rank : Nat
  deriving DecidableEq

/-- The highest records of one source, numbered from one. -/
def topRecords (limit : Nat) (sourceRecords : List Measured) : List RankedRecord :=
  ((Ranking.descending Measured.sortKey sourceRecords).take limit).mapIdx fun index record =>
    ⟨record.id, record.timestamp.isoformat, record.value, index + 1⟩

/-- The dict `by_source` of `get_top_by_source`. -/
def getTopBySource (rows : List Measured) (now : DateTime) (limit hours : Nat) :
    List (String × List RankedRecord) :=
  let records := Ranking.descending (fun record : Measured => record.timestamp)
    (rows.filter fun record => record.deletedAt = none && isRecent now hours record.timestamp)
  (Grouping.collect (fun record : Measured => record.source) records).map fun (source, sourceRecords) =>
    (source, topRecords limit sourceRecords)

structure PercentileRecord where
  id : Int
  timestamp : Text
  value : Option ℚ
  percentileRank : ℚ
  deriving DecidableEq

structure PercentileAnswer where
  source : String
  count : Nat
  records : List PercentileRecord
  deriving DecidableEq

/-- `get_percentile`, which numbers the records from the latest to the earliest. -/
def getPercentile (rows : List Measured) (source : String) : PercentileAnswer :=
  let records := (Ranking.descending (fun record : Measured => record.timestamp)
    (rows.filter fun record => record.deletedAt = none && record.source = source)).take 100
  let total := records.length
  { source
    count := total
    records := records.mapIdx fun index record =>
      { id := record.id
        timestamp := record.timestamp.isoformat
        value := record.value
        percentileRank := if total ≤ 1 then 0 else toDecimals toEven 4 ((index : ℚ) / (total - 1 : Nat)) } }

/-! ## Ranks of one source -/

def entriesOf {Entry : Type} (bySource : List (String × List Entry)) (source : String) : List Entry :=
  (bySource.filter fun group => group.1 = source).flatMap Prod.snd

theorem entriesOf_collect {Row Entry : Type} (sourceOf : Row → String) {make : List Row → List Entry}
    (nothing : make [] = []) (rows : List Row) (source : String) :
    entriesOf ((Grouping.collect sourceOf rows).map fun group => (group.1, make group.2)) source =
      make (rows.filter fun row => sourceOf row = source) := by
  rw [entriesOf, List.filter_map, List.flatMap_map]
  exact Grouping.entries_collect nothing rows source

def recentOf (rows : List Measured) (now : DateTime) (hours : Nat) (source : String) : List Measured :=
  (rows.filter fun record => record.deletedAt = none && isRecent now hours record.timestamp).filter
    fun record => record.source = source

def activeOf (rows : List Measured) (source : String) : List Measured :=
  rows.filter fun record => record.deletedAt = none && record.source = source

/-- The order in which records are numbered: of one key, the latest comes first. -/
def Measured.fullKey (record : Measured) : (Bool ×ₗ ℚ) ×ₗ DateTime := toLex (record.sortKey, record.timestamp)

section

variable {store : MeasuredStore} {records : List Measured} {source : String}

/-- Records of one source have times of their own. -/
theorem nodup_timestamps (listed : records.Sublist store.rows) (own : ∀ record ∈ records, record.source = source) :
    (records.map fun record => record.timestamp).Nodup := by
  have keys : (records.map fun record : Measured => record.key).Nodup := (listed.map _).nodup store.keys_nodup
  rw [List.Nodup, List.pairwise_map] at keys ⊢
  apply keys.imp_of_mem
  intro first second firstIn secondIn different same
  exact different (Prod.ext ((own first firstIn).trans (own second secondIn).symm) same)

theorem nodup_ids (listed : records.Sublist store.rows) : (records.map fun record => record.id).Nodup :=
  (listed.map _).nodup store.ids_nodup

theorem nodup_fullKey (times : (records.map fun record => record.timestamp).Nodup) :
    (records.map Measured.fullKey).Nodup := by
  apply List.Nodup.of_map fun key => (ofLex key).2
  rwa [List.map_map]

theorem recentOf_sublist (store : MeasuredStore) (source : String) (now : DateTime) (hours : Nat) :
    (recentOf store.rows now hours source).Sublist store.rows :=
  List.filter_sublist.trans List.filter_sublist

theorem activeOf_sublist (store : MeasuredStore) (source : String) :
    (activeOf store.rows source).Sublist store.rows := List.filter_sublist

theorem source_of_recentOf {rows : List Measured} {now : DateTime} {hours : Nat} :
    ∀ record ∈ recentOf rows now hours source, record.source = source := by
  intro record member
  exact of_decide_eq_true (List.mem_filter.mp member).2

theorem source_of_activeOf {rows : List Measured} : ∀ record ∈ activeOf rows source, record.source = source := by
  intro record member
  have fits := (List.mem_filter.mp member).2
  rw [Bool.and_eq_true] at fits
  exact of_decide_eq_true fits.2

theorem ranks_getTopBySource (store : MeasuredStore) (now : DateTime) (limit hours : Nat) (source : String) :
    ((entriesOf (getTopBySource store.rows now limit hours) source).map fun entry => (entry.id, entry.rank)).Perm
      (Ranking.numbered (fun record : Measured => record.id) Measured.fullKey limit
        (recentOf store.rows now hours source)) := by
  have times := nodup_timestamps (recentOf_sublist store source now hours) source_of_recentOf
  -- The query has put the records of the source in the order of their times.
  let recent := store.rows.filter fun record => record.deletedAt = none && isRecent now hours record.timestamp
  let ordered := (Ranking.descending (fun record : Measured => record.timestamp) recent).filter
    fun record => record.source = source
  have perm : ordered.Perm (recentOf store.rows now hours source) := (Ranking.descending_perm _ recent).filter _
  have orderedTimes := (perm.map fun record => record.timestamp).nodup_iff.mpr times
  have sorted : ordered.Pairwise fun first second => second.timestamp < first.timestamp := by
    have weakly : ordered.Pairwise fun first second => second.timestamp ≤ first.timestamp :=
      (List.pairwise_insertionSort (fun first second : Measured => second.timestamp ≤ first.timestamp) recent).filter _
    rw [List.Nodup, List.pairwise_map] at orderedTimes
    exact (weakly.and orderedTimes).imp fun both => lt_of_le_of_ne both.1 both.2.symm
  have entries : entriesOf (getTopBySource store.rows now limit hours) source = topRecords limit ordered :=
    entriesOf_collect _ (by simp [topRecords, Ranking.descending]) _ source
  rw [entries, topRecords, Ranking.map_mapIdx, Ranking.descending_descending sorted]
  exact (Ranking.numbered_take _ (nodup_fullKey orderedTimes) limit).trans (Ranking.numbered_perm _ perm)

end

end DataPipeline.Ingestor
