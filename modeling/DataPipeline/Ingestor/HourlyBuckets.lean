import DataPipeline.Ingestor.Analytics

/-! The hourly statistics, compared with what each hour's records say on their own.

The loops of `get_summary` and `_compute_stats_from_base` fill their buckets record
by record; here an hour's records are looked up among all of them.
-/

set_option autoImplicit false

namespace DataPipeline.Ingestor.HourlyBuckets

open Calendar Rounding

variable (selected : List Measured)

def ofHour (hour : DateTime) : List Measured := selected.filter fun record => record.hour = hour

def present (hour : DateTime) : List ℚ := (ofHour selected hour).filterMap Measured.value

structure Describes (hour : DateTime) (entry : HourStats) : Prop where
  text : entry.hour = hour.isoformat
  recordCount : entry.recordCount = (ofHour selected hour).length
  processedCount : entry.processedCount = ((ofHour selected hour).filter fun record => record.processed).length
  uniqueSources : entry.uniqueSources = ((ofHour selected hour).map fun record => record.source).toFinset.card
  avgValue : present selected hour ≠ [] →
    entry.avgValue = some (toDecimals toEven 4 ((present selected hour).sum / (present selected hour).length))
  minValue : ∀ least ∈ entry.minValue, IsLeast {value | value ∈ present selected hour} least
  maxValue : ∀ greatest ∈ entry.maxValue, IsGreatest {value | value ∈ present selected hour} greatest
  missing : (entry.avgValue = none ↔ present selected hour = []) ∧ (entry.minValue = none ↔ present selected hour = []) ∧
    (entry.maxValue = none ↔ present selected hour = [])

/-- The entries are those of the hours that the records fall in, latest hour first. -/
structure Partitions (hours : List DateTime) (entries : List HourStats) : Prop where
  descending : hours.Pairwise fun first second => second < first
  texts : entries.Pairwise fun first second => second.hour < first.hour
  complete : ∀ hour, hour ∈ hours ↔ ∃ record ∈ selected, record.hour = hour
  described : List.Forall₂ (Describes selected) hours entries
  counted : ∀ record ∈ selected, ∃! entry, entry ∈ entries ∧ entry.hour = record.hour.isoformat
  total : (entries.map HourStats.recordCount).sum = selected.length

variable {selected} {hour : DateTime}

theorem describes_hourStats (hour : DateTime) : Describes selected hour (hourStats hour (ofHour selected hour)) where
  text := rfl
  recordCount := rfl
  processedCount := List.countP_eq_length_filter
  uniqueSources := (List.card_toFinset _).symm
  avgValue some_ := if_neg some_
  minValue least found := by
    obtain ⟨member, lower⟩ := List.min?_eq_some_iff.mp found
    exact ⟨member, fun value listed => lower value listed⟩
  maxValue greatest found := by
    obtain ⟨member, upper⟩ := List.max?_eq_some_iff.mp found
    exact ⟨member, fun value listed => upper value listed⟩
  missing := by
    refine ⟨?_, List.min?_eq_none_iff, List.max?_eq_none_iff⟩
    change (if present selected hour = [] then none else some _) = none ↔ _
    split
    next none_ => simp [none_]
    next some_ => simp [some_]

theorem map_hourStats_hourly (selected : List Measured) :
    ((hourly selected).map fun group => hourStats group.1 group.2) =
      (Grouping.keys Measured.hour selected).map fun hour => hourStats hour (ofHour selected hour) := by
  rw [map_hourly hourStats selected fun hour _ _ perm => hourStats_perm hour perm, Grouping.groupBy, List.map_map]
  rfl

theorem partitions_hourly (selected : List Measured) :
    Partitions selected (Grouping.keys Measured.hour selected)
      ((hourly selected).map fun group => hourStats group.1 group.2) := by
  have descending : (Grouping.keys Measured.hour selected).Pairwise fun first second => second < first :=
    Grouping.strict_keys selected
  rw [map_hourStats_hourly]
  have texts : ((Grouping.keys Measured.hour selected).map fun hour => hourStats hour (ofHour selected hour)).Pairwise
      fun first second => second.hour < first.hour :=
    List.pairwise_map.mpr (descending.imp DateTime.isoformat_lt)
  refine ⟨descending, texts, fun hour => Grouping.mem_keys, ?_, ?_, ?_⟩
  · exact List.forall₂_map_right_iff.mpr (List.forall₂_same.mpr fun hour _ => describes_hourStats hour)
  · intro record member
    refine ⟨hourStats record.hour (ofHour selected record.hour), ⟨?_, rfl⟩, ?_⟩
    · exact List.mem_map_of_mem (Grouping.mem_keys.mpr ⟨record, member, rfl⟩)
    · rintro entry ⟨listed, same⟩
      obtain ⟨hour, -, rfl⟩ := List.mem_map.mp listed
      have hours : hour = record.hour := DateTime.isoformat_injective same
      rw [hours]
  · have perm : ((Grouping.groupBy Measured.hour selected).flatMap Prod.snd).Perm selected :=
      Grouping.flatMap_groupBy_perm selected
    rw [← perm.length_eq, Grouping.groupBy, List.flatMap_map, List.length_flatMap, List.map_map]
    rfl

/-- Both loops partition the records they select, and the fallback shows the first entries of its partition. -/
theorem hourly_partition (rows : List Measured) (now : DateTime) (hoursBack limit : Nat) :
    (∃ hours, Partitions
      (rows.filter fun record => record.deletedAt = none && isRecent now hoursBack record.timestamp) hours
      (getSummary rows now hoursBack)) ∧
    ∃ hours entries, Partitions (rows.filter fun record => record.deletedAt = none) hours entries ∧
      (computeStatsFromBase rows limit).map StatsEntry.toHourStats = entries.take limit := by
  refine ⟨⟨_, partitions_hourly _⟩, _, _, partitions_hourly _, ?_⟩
  rw [computeStatsFromBase, List.map_map, List.map_take]
  rfl

end DataPipeline.Ingestor.HourlyBuckets
