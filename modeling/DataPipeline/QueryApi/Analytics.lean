import DataPipeline.Ingestor.Analytics

/-! The summary of `services/query_api/routers/analytics.py`, against that of the ingestor.

Both read the same table. This one lets the database aggregate, where a missing
value counts as zero, and drops what is zero from the answer.
-/

set_option autoImplicit false

namespace DataPipeline.QueryApi

open Ingestor Calendar Rounding

structure RecentRecord where
  hour : DateTime
  source : String
  processed : Bool
  value : ℚ

/-- `COALESCE((raw_data->>'value')::NUMERIC, 0)` -/
def recentRecord (record : Measured) : RecentRecord :=
  ⟨hourOf record.timestamp, record.source, record.processed, record.value.getD 0⟩

structure HourlyAgg where
  hour : DateTime
  recordCount : Nat
  processedCount : Nat
  avgValue : Option ℚ
  minValue : Option ℚ
  maxValue : Option ℚ
  uniqueSources : Nat

def hourlyAgg (hour : DateTime) (records : List RecentRecord) : HourlyAgg where
  hour
  recordCount := records.length
  processedCount := records.countP (·.processed)
  avgValue := (average (records.map (·.value))).map (toDecimals awayFromZero 4)
  minValue := (records.map (·.value)).min?
  maxValue := (records.map (·.value)).max?
  uniqueSources := (records.map (·.source)).dedup.length

/-- `float(x) if x else None`, which takes zero for nothing. -/
def floatOrNone (value : Option ℚ) : Option ℚ := value.filter (· ≠ 0)

def entry (row : HourlyAgg) : HourStats where
  hour := row.hour.isoformat
  recordCount := row.recordCount
  processedCount := row.processedCount
  processedPct := some ((floatOrNone (percentage row.processedCount row.recordCount)).getD 0)
  avgValue := floatOrNone row.avgValue
  minValue := floatOrNone row.minValue
  maxValue := floatOrNone row.maxValue
  uniqueSources := row.uniqueSources

/-- The summary of `get_summary`. -/
def getSummary (rows : List Measured) (now : DateTime) (hours : Nat) : List HourStats :=
  let recentRecords :=
    (rows.filter fun record => record.deletedAt = none && isRecent now hours record.timestamp).map recentRecord
  (Grouping.groupBy RecentRecord.hour recentRecords).map fun (hour, records) => entry (hourlyAgg hour records)

def recentIn (rows : List Measured) (now : DateTime) (hours : Nat) (hour : DateTime) : List Measured :=
  (rows.filter fun record => record.deletedAt = none && isRecent now hours record.timestamp).filter
    fun record => record.hour = hour

structure SameSummary (records : List Measured) : Prop where
  /-- The percentage is not half-way between an even digit and the next. -/
  processed : ∀ k : Nat, 20000 * records.countP (·.processed) ≠ (4 * k + 1) * records.length
  /-- No record has a value, or the values do without a zero. -/
  values : let values := records.filterMap Measured.value
    values = [] ∨
    (((∃ value ∈ values, value < 0) ∨ (∀ value ∈ values, 0 < value) ∧ values.length = records.length) ∧
    ((∃ value ∈ values, 0 < value) ∨ (∀ value ∈ values, value < 0) ∧ values.length = records.length) ∧
    -- One number of four decimals, and not zero, is nearest to the average with and without zeros.
    ∃ n : Nat, 0 < n ∧ Cell awayFromZero n (|values.sum / records.length| * 10 ^ 4) ∧
      Cell toEven n (|values.sum / values.length| * 10 ^ 4))

/-! ## Zeros in the place of missing values -/

section

variable {Row : Type} {value : Row → Option ℚ} {records : List Row}

theorem mem_filled {number : ℚ} : number ∈ records.map (fun record => (value record).getD 0) ↔
    number ∈ records.filterMap value ∨ (number = 0 ∧ ∃ record ∈ records, value record = none) := by
  rw [List.mem_map, List.mem_filterMap]
  constructor
  · rintro ⟨record, member, rfl⟩
    cases own : value record with
    | none => exact .inr ⟨rfl, record, member, own⟩
    | some number => exact .inl ⟨record, member, own⟩
  · rintro (⟨record, member, own⟩ | ⟨rfl, record, member, missing⟩)
    · exact ⟨record, member, by rw [own, Option.getD_some]⟩
    · exact ⟨record, member, by rw [missing, Option.getD_none]⟩

theorem sum_filled : (records.map fun record => (value record).getD 0).sum = (records.filterMap value).sum := by
  induction records with
  | nil => rfl
  | cons first rest ih =>
    rw [List.map_cons, List.sum_cons, ih]
    cases own : value first with
    | none => rw [List.filterMap_cons_none own, Option.getD_none, zero_add]
    | some number => rw [List.filterMap_cons_some own, List.sum_cons, Option.getD_some]

theorem length_values_iff :
    (records.filterMap value).length = records.length ↔ ¬ ∃ record ∈ records, value record = none := by
  induction records with
  | nil => simp
  | cons first rest ih =>
    have shorter : (rest.filterMap value).length ≤ rest.length := List.length_filterMap_le _ _
    cases own : value first with
    | none =>
      rw [List.filterMap_cons_none own]
      simp only [List.length_cons, List.mem_cons, exists_eq_or_imp, own, true_or, not_true, iff_false]
      omega
    | some number =>
      rw [List.filterMap_cons_some own, List.length_cons, List.length_cons, Nat.add_right_cancel_iff, ih]
      simp [own]

end

@[simp] theorem floatOrNone_eq_some {value : Option ℚ} {number : ℚ} :
    floatOrNone value = some number ↔ value = some number ∧ number ≠ 0 := by
  rw [floatOrNone, Option.filter_eq_some_iff, decide_eq_true_eq]

/-- The extreme of all values in some order of numbers survives zeros that fill
gaps, and is not zero: it lies before zero, or there are no gaps and all lie after. -/
theorem extreme_agrees_iff {Row : Type} {value : Row → Option ℚ} {records : List Row} {extreme : List ℚ → Option ℚ}
    {before : ℚ → ℚ → Prop} (order : IsLinearOrder ℚ before)
    (exact : ∀ numbers a, extreme numbers = some a ↔ a ∈ numbers ∧ ∀ b ∈ numbers, before a b)
    {first : ℚ} (isFirst : extreme (records.filterMap value) = some first) :
    floatOrNone (extreme (records.map fun record => (value record).getD 0)) = extreme (records.filterMap value) ↔
      (∃ number ∈ records.filterMap value, number ≠ 0 ∧ before number 0) ∨
        (∀ number ∈ records.filterMap value, number ≠ 0 ∧ before 0 number) ∧
          (records.filterMap value).length = records.length := by
  obtain ⟨member, bound⟩ := (exact _ _).mp isFirst
  rw [isFirst, floatOrNone_eq_some, exact, length_values_iff]
  constructor
  · rintro ⟨⟨-, all⟩, nonzero⟩
    by_cases below : before first 0
    · exact .inl ⟨first, member, nonzero, below⟩
    · refine .inr ⟨fun number listed => ⟨?_, ?_⟩, ?_⟩
      · rintro rfl
        exact below (bound 0 listed)
      · rcases order.total 0 number with above | under
        · exact above
        · exact absurd (order.trans _ _ _ (bound number listed) under) below
      · intro missing
        exact below (all 0 (mem_filled.mpr (.inr ⟨rfl, missing⟩)))
  · rintro (⟨number, listed, nonzero, below⟩ | ⟨all, complete⟩)
    · refine ⟨⟨mem_filled.mpr (.inl member), fun other filled => ?_⟩, ?_⟩
      · rcases mem_filled.mp filled with present | ⟨rfl, -⟩
        · exact bound other present
        · exact order.trans _ _ _ (bound number listed) below
      · rintro rfl
        exact nonzero (order.antisymm _ _ below (bound number listed))
    · refine ⟨⟨mem_filled.mpr (.inl member), fun other filled => ?_⟩, (all first member).1⟩
      rcases mem_filled.mp filled with present | ⟨-, missing⟩
      · exact bound other present
      · exact absurd missing complete

variable {records : List Measured}

theorem min_agrees_iff (some_value : records.filterMap Measured.value ≠ []) :
    floatOrNone (records.map fun record => record.value.getD 0).min? = (records.filterMap Measured.value).min? ↔
      (∃ value ∈ records.filterMap Measured.value, value < 0) ∨
        (∀ value ∈ records.filterMap Measured.value, 0 < value) ∧
          (records.filterMap Measured.value).length = records.length := by
  obtain ⟨first, isFirst⟩ := Option.isSome_iff_exists.mp (List.isSome_min?_of_ne_nil some_value)
  have order : IsLinearOrder ℚ (· ≤ ·) := inferInstance
  rw [extreme_agrees_iff order (fun _ _ => List.min?_eq_some_iff) isFirst]
  simp only [lt_iff_le_and_ne, and_comm, ne_comm (a := (0 : ℚ))]

theorem max_agrees_iff (some_value : records.filterMap Measured.value ≠ []) :
    floatOrNone (records.map fun record => record.value.getD 0).max? = (records.filterMap Measured.value).max? ↔
      (∃ value ∈ records.filterMap Measured.value, 0 < value) ∨
        (∀ value ∈ records.filterMap Measured.value, value < 0) ∧
          (records.filterMap Measured.value).length = records.length := by
  obtain ⟨last, isLast⟩ := Option.isSome_iff_exists.mp (List.isSome_max?_of_ne_nil some_value)
  have order : IsLinearOrder ℚ (· ≥ ·) := inferInstance
  rw [extreme_agrees_iff order (fun _ _ => List.max?_eq_some_iff) isLast]
  simp only [lt_iff_le_and_ne, and_comm, ne_comm (a := (0 : ℚ)), ge_iff_le]

theorem extreme_of_no_values (no_values : records.filterMap Measured.value = []) {extreme : List ℚ → Option ℚ}
    (picks : ∀ numbers a, extreme numbers = some a → a ∈ numbers) :
    floatOrNone (extreme (records.map fun record => record.value.getD 0)) = none := by
  rw [Option.eq_none_iff_forall_ne_some]
  intro number shown
  obtain ⟨picked, nonzero⟩ := floatOrNone_eq_some.mp shown
  rcases mem_filled.mp (picks _ _ picked) with present | ⟨zero, -⟩
  · rw [no_values] at present
    cases present
  · exact nonzero zero

theorem average_filled (nonempty : records ≠ []) :
    average (records.map fun record => record.value.getD 0) =
      some ((records.filterMap Measured.value).sum / records.length) := by
  rw [average, if_neg (by rwa [List.map_eq_nil_iff]), sum_filled, List.length_map]

theorem avg_of_no_values (nonempty : records ≠ []) (no_values : records.filterMap Measured.value = []) :
    floatOrNone ((average (records.map fun record => record.value.getD 0)).map (toDecimals awayFromZero 4)) = none := by
  rw [average_filled nonempty, no_values, List.sum_nil, zero_div, Option.map_some, toDecimals_zero]
  rfl

theorem avg_agrees_iff (some_value : records.filterMap Measured.value ≠ []) :
    floatOrNone ((average (records.map fun record => record.value.getD 0)).map (toDecimals awayFromZero 4)) =
      some (toDecimals toEven 4
        ((records.filterMap Measured.value).sum / (records.filterMap Measured.value).length)) ↔
    ∃ n : Nat, 0 < n ∧ Cell awayFromZero n (|(records.filterMap Measured.value).sum / records.length| * 10 ^ 4) ∧
      Cell toEven n
        (|(records.filterMap Measured.value).sum / (records.filterMap Measured.value).length| * 10 ^ 4) := by
  have nonempty : records ≠ [] := by
    rintro rfl
    exact some_value rfl
  have count : (0 : ℚ) < records.length := Nat.cast_pos.mpr (List.length_pos_iff.mpr nonempty)
  have present : (0 : ℚ) < (records.filterMap Measured.value).length :=
    Nat.cast_pos.mpr (List.length_pos_iff.mpr some_value)
  have sameSign : (records.filterMap Measured.value).sum / records.length < 0 ↔
      (records.filterMap Measured.value).sum / (records.filterMap Measured.value).length < 0 := by
    rw [div_lt_iff₀ count, div_lt_iff₀ present, zero_mul, zero_mul]
  rw [average_filled nonempty, Option.map_some, floatOrNone_eq_some, Option.some.injEq, ← toDecimals_meet_iff sameSign]
  constructor
  · rintro ⟨same, nonzero⟩
    exact ⟨same ▸ nonzero, same⟩
  · rintro ⟨nonzero, same⟩
    exact ⟨same, same ▸ nonzero⟩

theorem pct_agrees_iff (processed : Nat) {count : Nat} (positive : 0 < count) :
    (floatOrNone (percentage processed count)).getD 0 = toDecimals toEven 2 ((processed : ℚ) / count * 100) ↔
      ∀ k : Nat, 20000 * processed ≠ (4 * k + 1) * count := by
  have shown : (floatOrNone (percentage processed count)).getD 0 =
      toDecimals awayFromZero 2 ((processed : ℚ) / count * 100) := by
    rw [percentage, if_neg positive.ne', floatOrNone, Option.filter_some]
    -- Zero is dropped and put back.
    by_cases zero : toDecimals awayFromZero 2 ((processed : ℚ) / count * 100) = 0 <;> simp [zero]
  rw [shown, toDecimals_agree_iff (by positivity)]
  apply forall_congr'
  intro k
  have scale : (count : ℚ) ≠ 0 := Nat.cast_ne_zero.mpr positive.ne'
  rw [ne_eq, ne_eq, not_iff_not, div_mul_eq_mul_div, div_mul_eq_mul_div, div_eq_iff scale]
  constructor
  · intro same
    have doubled : (20000 * processed : ℚ) = (4 * k + 1) * count := by linarith
    exact_mod_cast doubled
  · intro same
    have doubled : (20000 * processed : ℚ) = (4 * k + 1) * count := by exact_mod_cast same
    linarith

theorem entry_eq_iff (hour : DateTime) (nonempty : records ≠ []) :
    entry (hourlyAgg hour (records.map recentRecord)) = hourStats hour records ↔ SameSummary records := by
  have count : 0 < records.length := List.length_pos_iff.mpr nonempty
  have values : (records.map recentRecord).map RecentRecord.value = records.map fun record => record.value.getD 0 := by
    rw [List.map_map]
    rfl
  have sources : (records.map recentRecord).map RecentRecord.source = records.map fun record => record.source := by
    rw [List.map_map]
    rfl
  have processed : (records.map recentRecord).countP RecentRecord.processed =
      records.countP fun record => record.processed := by
    rw [List.countP_map]
    rfl
  simp only [entry, hourlyAgg, hourStats, HourStats.mk.injEq, values, sources, processed, List.length_map, true_and,
    and_true, if_neg count.ne', Option.some.injEq]
  rw [pct_agrees_iff _ count]
  by_cases no_values : records.filterMap Measured.value = []
  · have least : floatOrNone (records.map fun record => record.value.getD 0).min? = none :=
      extreme_of_no_values no_values fun _ _ picked => List.min?_mem picked
    have greatest : floatOrNone (records.map fun record => record.value.getD 0).max? = none :=
      extreme_of_no_values no_values fun _ _ picked => List.max?_mem picked
    rw [if_pos no_values, avg_of_no_values nonempty no_values, least, greatest, no_values, List.min?_nil, List.max?_nil]
    constructor
    · rintro ⟨pct, -⟩
      exact ⟨pct, .inl no_values⟩
    · rintro ⟨pct, -⟩
      exact ⟨pct, rfl, rfl, rfl⟩
  · rw [if_neg no_values, avg_agrees_iff no_values, min_agrees_iff no_values, max_agrees_iff no_values]
    constructor
    · rintro ⟨pct, avg, least, greatest⟩
      exact ⟨pct, .inr ⟨least, greatest, avg⟩⟩
    · rintro ⟨pct, none | ⟨least, greatest, avg⟩⟩
      · exact absurd none no_values
      · exact ⟨pct, avg, least, greatest⟩

/-- The two endpoints give one summary exactly if in every hour the records are such. -/
theorem summaries_agree_iff (rows : List Measured) (now : DateTime) (hours : Nat) :
    getSummary rows now hours = Ingestor.getSummary rows now hours ↔
      ∀ hour, recentIn rows now hours hour = [] ∨ SameSummary (recentIn rows now hours hour) := by
  have inSql : getSummary rows now hours =
      (Grouping.groupBy Measured.hour (rows.filter fun record =>
        record.deletedAt = none && isRecent now hours record.timestamp)).map
          fun group => entry (hourlyAgg group.1 (group.2.map recentRecord)) := by
    rw [getSummary, Grouping.groupBy_map, List.map_map]
    rfl
  have inPython : Ingestor.getSummary rows now hours =
      (Grouping.groupBy Measured.hour (rows.filter fun record =>
        record.deletedAt = none && isRecent now hours record.timestamp)).map
          fun group => hourStats group.1 group.2 :=
    map_hourly hourStats _ fun hour _ _ => hourStats_perm hour
  rw [inSql, inPython, List.map_inj_left]
  unfold recentIn
  generalize (rows.filter fun record => record.deletedAt = none && isRecent now hours record.timestamp) = recent
  constructor
  · intro all hour
    by_cases none : (recent.filter fun record => record.hour = hour) = []
    · exact .inl none
    · have agrees := all (hour, recent.filter fun record => record.hour = hour) (Grouping.mem_groupBy.mpr ⟨rfl, none⟩)
      exact .inr ((entry_eq_iff hour none).mp agrees)
  · rintro each ⟨hour, records⟩ member
    obtain ⟨same, nonempty⟩ := Grouping.mem_groupBy.mp member
    rcases each hour with none | agrees
    · exact absurd (same.trans none) nonempty
    · exact (entry_eq_iff hour nonempty).mpr (same ▸ agrees)

def twoReadings : List Measured :=
  [measuredReading freshOne "sensor" (some 10), measuredReading freshTwo "probe" none]

theorem missing_value_counts_as_zero :
    (getSummary twoReadings (january 10) 24).map HourStats.avgValue = [some 5] ∧
    (Ingestor.getSummary twoReadings (january 10) 24).map HourStats.avgValue = [some 10] ∧
    getSummary twoReadings (january 10) 24 ≠ Ingestor.getSummary twoReadings (january 10) 24 := by
  have inSql : (getSummary twoReadings (january 10) 24).map HourStats.avgValue = [some 5] := by decide +kernel
  have inPython : (Ingestor.getSummary twoReadings (january 10) 24).map HourStats.avgValue = [some 10] := by
    decide +kernel
  refine ⟨inSql, inPython, fun same => ?_⟩
  rw [same, inPython] at inSql
  revert inSql
  decide +kernel

end DataPipeline.QueryApi
