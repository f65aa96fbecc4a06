import DataPipeline.Ingestor.Ranking
import DataPipeline.Library.Raising

/-! The analytics of `ingestor/routers/analytics.py` over whatever `raw_data.value` is.

What `float` makes of a text and which records a sort compares are parameters.
Numbers are exact until they are rounded, but for the integers that are too large
to be converted.
-/

set_option autoImplicit false

namespace DataPipeline.Ingestor.RawAnalytics

open Encoding Calendar Rounding Raising

inductive ReadError where
  | typeError
  | valueError
  | overflowError
  deriving DecidableEq, Repr

/-! ## Numbers as `float` gives them -/

inductive Reading where
  | finite (value : ℚ)
  | infinity (negative : Bool)
  | nan
  deriving DecidableEq

namespace Reading

def add : Reading → Reading → Reading
  | .finite a, .finite b => .finite (a + b)
  | .nan, _ => .nan
  | _, .nan => .nan
  | .infinity a, .infinity b => if a = b then .infinity a else .nan
  | .infinity a, .finite _ => .infinity a
  | .finite _, .infinity b => .infinity b

def divide (count : Nat) : Reading → Reading
  | .finite value => .finite (value / count)
  | other => other

def round (digits : Nat) : Reading → Reading
  | .finite value => .finite (toDecimals toEven digits value)
  | other => other

/-- Nothing is less than NaN or greater. -/
def less : Reading → Reading → Bool
  | .finite a, .finite b => a < b
  | .finite _, .infinity negative => !negative
  | .infinity negative, .finite _ => negative
  | .infinity a, .infinity b => a && !b
  | _, _ => false

def sum (values : List Reading) : Reading := values.foldl add (.finite 0)

def min : List Reading → Option Reading
  | [] => none
  | first :: rest => some (rest.foldl (fun least value => if value.less least then value else least) first)

def max : List Reading → Option Reading
  | [] => none
  | first :: rest => some (rest.foldl (fun greatest value => if greatest.less value then value else greatest) first)

end Reading

/-- The number that a value counts as in a comparison. -/
def reading : Json → Option Reading
  | .bool value => some (.finite (if value then 1 else 0))
  | .int value => some (.finite value)
  | .float (.finite negative magnitude) => some (.finite (if negative then -magnitude else magnitude))
  | .float (.infinity negative) => some (.infinity negative)
  | .float .nan => some .nan
  | _ => none

/-- The least integer that is rounded up to `2 ** 1024`. -/
def floatOverflow : Nat := 2 ^ 1024 - 2 ^ 970

/-- `float(value)` -/
def pyFloat (floatOfText : Text → Option Reading) : Json → Except ReadError Reading
  | .int value => if value.natAbs < floatOverflow then .ok (.finite value) else .error .overflowError
  | .str text =>
    match floatOfText text with
    | some value => .ok value
    | none => .error .valueError
  | value =>
    match reading value with
    | some value => .ok value
    | none => .error .typeError

/-! ## Comparing values -/

mutual

/-- `first < second` -/
def pyLess : Json → Json → Except ReadError Bool
  | .str a, .str b => .ok (a < b)
  | .list a, .list b => pyLessItems a b
  | a, b =>
    match reading a, reading b with
    | some a, some b => .ok (a.less b)
    | _, _ => .error .typeError

/-- The first items that differ decide. -/
def pyLessItems : List Json → List Json → Except ReadError Bool
  | a :: first, b :: second => if Json.pyEq a b then pyLessItems first second else pyLess a b
  | [], [] => .ok false
  | [], _ :: _ => .ok true
  | _ :: _, [] => .ok false

end

/-- `raw_data.get("value")` -/
def rawValue (record : Record) : Json := (Json.get record.rawData "value").getD .null

/-- The key of the sort, `(value is not None, value or 0)`. -/
structure SortKey where
  present : Bool
  value : Json

def sortKey (record : Record) : SortKey where
  present := rawValue record ≠ .null
  value := if Json.truthy (rawValue record) then rawValue record else .int 0

def SortKey.less (first second : SortKey) : Except ReadError Bool :=
  if first.present ≠ second.present then .ok second.present
  else if Json.pyEq first.value second.value then .ok false
  else pyLess first.value second.value

/-! ## Statistics by hour -/

structure RawStats where
  hour : Text
  recordCount : Nat
  processedCount : Nat
  processedPct : Option ℚ
  avgValue : Option Reading
  minValue : Option Reading
  maxValue : Option Reading
  uniqueSources : Nat
  deriving DecidableEq

structure RawStatsEntry extends RawStats where
  sourceList : SourceList
  deriving DecidableEq

variable (floatOfText : Text → Option Reading)

def values (records : List Record) : Except ReadError (List Reading) :=
  ((records.map rawValue).filter fun value => value ≠ .null).mapM (pyFloat floatOfText)

/-- What the loops of `get_summary` and `_compute_stats_from_base` make of the records of one hour. -/
def hourStats (hour : DateTime) (records : List Record) : Except ReadError RawStats := do
  let recordCount := records.length
  let processedCount := records.countP (·.processed)
  let values ← values floatOfText records
  return {
    hour := hour.isoformat
    recordCount
    processedCount
    processedPct :=
      if recordCount = 0 then none else some (toDecimals toEven 2 ((processedCount : ℚ) / recordCount * 100))
    avgValue := if values = [] then none else some (((Reading.sum values).divide values.length).round 4)
    minValue := Reading.min values
    maxValue := Reading.max values
    uniqueSources := (records.map (·.source)).dedup.length }

def hourly (records : List Record) : List (DateTime × List Record) :=
  Grouping.descending (Grouping.collect (fun record : Record => hourOf record.timestamp)
    (records.insertionSort fun first second => first.timestamp ≤ second.timestamp))

/-- The summary of `get_summary`. -/
def getSummary (rows : List Record) (now : DateTime) (hours : Nat) : Except ReadError (List RawStats) :=
  (hourly (rows.filter fun record => record.deletedAt = none && isRecent now hours record.timestamp)).mapM
    fun (hour, records) => hourStats floatOfText hour records

def computeStatsFromBase (rows : List Record) (limit : Nat) : Except ReadError (List RawStatsEntry) :=
  ((hourly (rows.filter fun record => record.deletedAt = none)).take limit).mapM fun (hour, records) => do
    let stats ← hourStats floatOfText hour records
    return { stats with
      sourceList := .joined (",".intercalate
        ((records.map (·.source)).dedup.insertionSort fun first second => first ≤ second)) }

/-! ## Top records by source -/

structure RawRanked where
  id : Int
  timestamp : Text
  value : Json
  rank : Nat
  deriving DecidableEq

variable (sorting : Sorting ReadError)

/-- The highest records of one source, numbered from one. -/
def topRecords (limit : Nat) (sourceRecords : List Record) : Except ReadError (List RawRanked) := do
  let sorted ← sorting.sort (fun first second => (sortKey first).less (sortKey second)) sourceRecords
  return (sorted.take limit).mapIdx fun index record =>
    ⟨record.id, record.timestamp.isoformat, rawValue record, index + 1⟩

/-- The dict `by_source` of `get_top_by_source`. -/
def getTopBySource (rows : List Record) (now : DateTime) (limit hours : Nat) :
    Except ReadError (List (String × List RawRanked)) :=
  let records := Ranking.descending (fun record : Record => record.timestamp)
    (rows.filter fun record => record.deletedAt = none && isRecent now hours record.timestamp)
  (Grouping.collect (fun record : Record => record.source) records).mapM fun (source, sourceRecords) => do
    let top ← topRecords sorting limit sourceRecords
    return (source, top)

/-! ## What they should give -/

def isNumeric (value : Json) : Bool := value = .null || (exactNumber value).isSome

theorem get_without (entries : List (Text × Json)) (key : String) :
    Json.get (entries.filter fun entry => entry.1 ≠ Text.ofString key) key = none := by
  rw [Json.get, List.lookup_eq_none_iff]
  intro entry listed
  have different := of_decide_eq_true (List.mem_filter.mp listed).2
  simpa using different.symm

def measured (record : Record) : Measured :=
  if numeric : isNumeric (rawValue record) = true then
    { record with
      numeric := by
        intro value listed
        rw [isNumeric, rawValue, listed, Option.getD_some, Bool.or_eq_true, decide_eq_true_eq] at numeric
        exact numeric }
  else
    { record with
      rawData := record.rawData.filter fun entry => entry.1 ≠ Text.ofString "value"
      numeric := by
        intro value listed
        rw [get_without] at listed
        cases listed }

def ofStats (stats : HourStats) : RawStats where
  hour := stats.hour
  recordCount := stats.recordCount
  processedCount := stats.processedCount
  processedPct := stats.processedPct
  avgValue := stats.avgValue.map .finite
  minValue := stats.minValue.map .finite
  maxValue := stats.maxValue.map .finite
  uniqueSources := stats.uniqueSources

def ofStatsEntry (entry : StatsEntry) : RawStatsEntry :=
  { ofStats entry.toHourStats with sourceList := entry.sourceList }

def shown (value : Json) : Option (Option ℚ) :=
  if value = .null then some none else (exactNumber value).map some

def RawRanked.ranked (entry : RawRanked) : Option RankedRecord :=
  (shown entry.value).map fun value => ⟨entry.id, entry.timestamp, value, entry.rank⟩

/-- An answer with the values of another, which are numbers or missing. -/
def ReadsAs (answer : List (String × List RawRanked)) (expected : List (String × List RankedRecord)) : Prop :=
  (answer.map fun group => (group.1, group.2.map RawRanked.ranked)) =
    expected.map fun group => (group.1, group.2.map some)

/-- Whatever the time and the arguments, the endpoints answer as if records without a
numeric value had none. -/
structure Reads (rows : List Record) : Prop where
  summary : ∀ (now : DateTime) (hours : Nat), hours ≤ 168 →
    getSummary floatOfText rows now hours =
      .ok ((Ingestor.getSummary (rows.map measured) now hours).map ofStats)
  topBySource : ∀ (now : DateTime) (limit hours : Nat), hours ≤ 2160 → ∃ answer,
    getTopBySource sorting rows now limit hours = .ok answer ∧
      ReadsAs answer (Ingestor.getTopBySource (rows.map measured) now limit hours)
  statsFromBase : ∀ limit : Nat,
    computeStatsFromBase floatOfText rows limit =
      .ok ((Ingestor.computeStatsFromBase (rows.map measured) limit).map ofStatsEntry)

def isReadable : Json → Bool
  | .null => true
  | .int value => value.natAbs < floatOverflow
  | .float (.finite _ _) => true
  | _ => false

/-! ## Records with readable values -/

section

variable {record : Record}

theorem fields_measured (record : Record) :
    (measured record).id = record.id ∧ (measured record).source = record.source ∧
      (measured record).timestamp = record.timestamp ∧ (measured record).processed = record.processed ∧
      (measured record).deletedAt = record.deletedAt := by
  unfold measured
  split
  next => exact ⟨rfl, rfl, rfl, rfl, rfl⟩
  next => exact ⟨rfl, rfl, rfl, rfl, rfl⟩

@[simp] theorem id_measured (record : Record) : (measured record).id = record.id := (fields_measured record).1

@[simp] theorem source_measured (record : Record) : (measured record).source = record.source :=
  (fields_measured record).2.1

@[simp] theorem timestamp_measured (record : Record) : (measured record).timestamp = record.timestamp :=
  (fields_measured record).2.2.1

@[simp] theorem processed_measured (record : Record) : (measured record).processed = record.processed :=
  (fields_measured record).2.2.2.1

@[simp] theorem deletedAt_measured (record : Record) : (measured record).deletedAt = record.deletedAt :=
  (fields_measured record).2.2.2.2

theorem isNumeric_of_readable {value : Json} (readable : isReadable value = true) : isNumeric value = true := by
  unfold isReadable at readable
  split at readable
  next => rfl
  next => simp [isNumeric, exactNumber]
  next => simp [isNumeric, exactNumber]
  next => cases readable

theorem value_measured (numeric : isNumeric (rawValue record) = true) :
    (measured record).value = exactNumber (rawValue record) := by
  rw [measured, dif_pos numeric, Measured.value, rawValue]
  cases Json.get record.rawData "value" with
  | none => rfl
  | some value => rfl

theorem pyFloat_of_readable {value : Json} (readable : isReadable value = true) (present : value ≠ .null) :
    ∃ number, exactNumber value = some number ∧ pyFloat floatOfText value = .ok (.finite number) := by
  unfold isReadable at readable
  split at readable
  next => exact absurd rfl present
  next value =>
    refine ⟨value, rfl, ?_⟩
    rw [pyFloat, if_pos (of_decide_eq_true readable)]
  next negative magnitude => exact ⟨_, rfl, rfl⟩
  next => cases readable

/-! ## Statistics of readable values -/

variable {records : List Record}

theorem values_ok (readable : ∀ record ∈ records, isReadable (rawValue record) = true) :
    values floatOfText records = .ok (((records.map measured).filterMap Measured.value).map .finite) := by
  rw [values]
  induction records with
  | nil => rfl
  | cons record records ih =>
    have own := readable record List.mem_cons_self
    have rest := ih fun other member => readable other (List.mem_cons_of_mem _ member)
    have value := value_measured (isNumeric_of_readable own)
    rw [List.map_cons, List.filter_cons]
    by_cases missing : rawValue record = .null
    · rw [missing] at value
      rw [if_neg (by simp [missing]), rest, List.map_cons, List.filterMap_cons_none value]
    · obtain ⟨number, exactly, converted⟩ := pyFloat_of_readable floatOfText own missing
      rw [exactly] at value
      rw [if_pos (by simp [missing]), List.mapM_cons, converted, rest, List.map_cons,
        List.filterMap_cons_some value, List.map_cons]
      rfl

theorem sum_finite (numbers : List ℚ) : Reading.sum (numbers.map .finite) = .finite numbers.sum := by
  rw [Reading.sum, List.foldl_map, List.foldl_hom Reading.finite (fun _ _ => rfl), List.sum_eq_foldl]

theorem min_finite (numbers : List ℚ) : Reading.min (numbers.map .finite) = numbers.min?.map .finite := by
  cases numbers with
  | nil => rfl
  | cons first rest =>
    rw [List.map_cons, Reading.min, List.min?_cons', Option.map_some, List.foldl_map]
    refine congrArg some (List.foldl_hom Reading.finite ?_)
    intro least value
    rw [Reading.less]
    by_cases smaller : value < least
    · rw [if_pos (decide_eq_true smaller), min_eq_right smaller.le]
    · rw [if_neg (by simpa using smaller), min_eq_left (not_lt.mp smaller)]

theorem max_finite (numbers : List ℚ) : Reading.max (numbers.map .finite) = numbers.max?.map .finite := by
  cases numbers with
  | nil => rfl
  | cons first rest =>
    rw [List.map_cons, Reading.max, List.max?_cons', Option.map_some, List.foldl_map]
    refine congrArg some (List.foldl_hom Reading.finite ?_)
    intro greatest value
    rw [Reading.less]
    by_cases greater : greatest < value
    · rw [if_pos (decide_eq_true greater), max_eq_right greater.le]
    · rw [if_neg (by simpa using greater), max_eq_left (not_lt.mp greater)]

theorem sources_measured (records : List Record) :
    (records.map measured).map (fun record => record.source) = records.map fun record => record.source := by
  rw [List.map_map]
  apply List.map_congr_left
  intro record _
  exact source_measured record

theorem hourStats_ok (hour : DateTime) (readable : ∀ record ∈ records, isReadable (rawValue record) = true) :
    hourStats floatOfText hour records = .ok (ofStats (Ingestor.hourStats hour (records.map measured))) := by
  have processed : (records.map measured).countP (fun record => record.processed) =
      records.countP fun record => record.processed := by
    rw [List.countP_map]
    apply List.countP_congr
    intro record _
    rw [Function.comp_apply, processed_measured]
  rw [hourStats, values_ok floatOfText readable, Ingestor.hourStats, sources_measured, processed, List.length_map]
  generalize (records.map measured).filterMap Measured.value = numbers
  have average : (if numbers.map Reading.finite = [] then none else
      some (((Reading.sum (numbers.map .finite)).divide (numbers.map Reading.finite).length).round 4)) =
      (if numbers = [] then none else some (toDecimals toEven 4 (numbers.sum / numbers.length))).map .finite := by
    rw [sum_finite, List.length_map]
    cases numbers with
    | nil => rfl
    | cons number numbers => rfl
  show Except.ok _ = Except.ok _
  rw [average, min_finite, max_finite]
  rfl

theorem hourly_map (records : List Record) :
    Ingestor.hourly (records.map measured) = (hourly records).map fun group => (group.1, group.2.map measured) := by
  have sorted : (records.map measured).insertionSort (fun first second => first.timestamp ≤ second.timestamp) =
      (records.insertionSort fun first second => first.timestamp ≤ second.timestamp).map measured := by
    symm
    apply List.map_insertionSort (r := fun first second : Record => first.timestamp ≤ second.timestamp)
    intro first _ second _
    rw [timestamp_measured, timestamp_measured]
  have sameHour : (fun record => Measured.hour (measured record)) = fun record : Record => hourOf record.timestamp := by
    funext record
    rw [Measured.hour, timestamp_measured]
  rw [Ingestor.hourly, hourly, sorted, Grouping.collect_map, sameHour]
  exact Grouping.descending_map (fun members : List Record => members.map measured) _

theorem mem_of_hourly {group : DateTime × List Record} (listed : group ∈ hourly records) :
    ∀ record ∈ group.2, record ∈ records := by
  have collected := (List.perm_insertionSort _ _).mem_iff.mp listed
  intro record member
  exact (List.mem_insertionSort _).mp ((Grouping.group_sublist collected).subset member)

theorem filter_measured (rows : List Record) (keep : Option DateTime → DateTime → Bool) :
    (rows.map measured).filter (fun record => keep record.deletedAt record.timestamp) =
      (rows.filter fun record => keep record.deletedAt record.timestamp).map measured := by
  rw [List.filter_map]
  congr 1
  apply List.filter_congr
  intro record _
  rw [Function.comp_apply, deletedAt_measured, timestamp_measured]

variable {rows : List Record}

theorem getSummary_ok (readable : ∀ record ∈ rows, record.Active → isReadable (rawValue record) = true)
    (now : DateTime) (hours : Nat) :
    getSummary floatOfText rows now hours =
      .ok ((Ingestor.getSummary (rows.map measured) now hours).map ofStats) := by
  rw [getSummary, Ingestor.getSummary,
    filter_measured rows fun deletedAt timestamp => deletedAt = none && isRecent now hours timestamp, hourly_map,
    List.map_map, List.map_map]
  apply mapM_ok
  intro group listed
  apply hourStats_ok
  intro record member
  have kept := List.mem_filter.mp (mem_of_hourly listed record member)
  have fits := Bool.and_eq_true_iff.mp kept.2
  exact readable record kept.1 (of_decide_eq_true fits.1)

theorem computeStatsFromBase_ok
    (readable : ∀ record ∈ rows, record.Active → isReadable (rawValue record) = true) (limit : Nat) :
    computeStatsFromBase floatOfText rows limit =
      .ok ((Ingestor.computeStatsFromBase (rows.map measured) limit).map ofStatsEntry) := by
  rw [computeStatsFromBase, Ingestor.computeStatsFromBase,
    filter_measured rows fun deletedAt _ => deletedAt = none, hourly_map, ← List.map_take, List.map_map, List.map_map]
  apply mapM_ok
  intro group listed
  obtain ⟨hour, members⟩ := group
  have fine : ∀ record ∈ members, isReadable (rawValue record) = true := by
    intro record member
    have kept := List.mem_filter.mp (mem_of_hourly (List.mem_of_mem_take listed) record member)
    exact readable record kept.1 (of_decide_eq_true kept.2)
  simp only [Function.comp_apply, hourStats_ok floatOfText hour fine, sources_measured, ofStatsEntry]
  rfl

end

/-! ## Ranks of readable values -/

section

variable {first second : Json} {p q : ℚ}

theorem exactNumber_of_number (exactly : exactNumber first = some p) :
    ∃ negative magnitude, Json.number first = some (.finite negative magnitude) ∧
      p = if negative then -magnitude else magnitude := by
  unfold exactNumber at exactly
  split at exactly
  next value =>
    refine ⟨value < 0, value.natAbs, rfl, ?_⟩
    rw [← Option.some.inj exactly]
    by_cases negative : value < 0
    · rw [decide_eq_true negative, if_pos rfl, Nat.cast_natAbs, abs_of_neg negative]
      push_cast
      ring
    · rw [decide_eq_false negative, if_neg (by decide), Nat.cast_natAbs, abs_of_nonneg (not_lt.mp negative)]
  next negative magnitude =>
    refine ⟨negative && magnitude ≠ 0, magnitude, rfl, ?_⟩
    rw [← Option.some.inj exactly]
    by_cases zero : magnitude = 0
    · simp [zero]
    · simp [zero]
  next => cases exactly

theorem eq_of_pyEq (left : exactNumber first = some p) (right : exactNumber second = some q)
    (same : Json.pyEq first second = true) : p = q := by
  have alike : Json.number first = Json.number second := by
    cases first <;> first | exact of_decide_eq_true same | simp [exactNumber] at left
  obtain ⟨negative, magnitude, number, shape⟩ := exactNumber_of_number left
  obtain ⟨negative', magnitude', number', shape'⟩ := exactNumber_of_number right
  rw [number, number'] at alike
  cases alike
  rw [shape, shape']

theorem reading_of_exactNumber (exactly : exactNumber first = some p) : reading first = some (.finite p) := by
  unfold exactNumber at exactly
  split at exactly
  next => rw [reading, ← Option.some.inj exactly]
  next => rw [reading, ← Option.some.inj exactly]
  next => cases exactly

theorem pyLess_numeric (left : exactNumber first = some p) (right : exactNumber second = some q) :
    pyLess first second = .ok (decide (p < q)) := by
  have unfolded : pyLess first second =
      match reading first, reading second with
      | some a, some b => .ok (a.less b)
      | _, _ => .error .typeError := by
    cases first <;> first | rfl | simp [exactNumber] at left
  rw [unfolded, reading_of_exactNumber left, reading_of_exactNumber right]
  rfl

theorem sortKey_numeric {record : Record} (numeric : isNumeric (rawValue record) = true) :
    (sortKey record).present = (measured record).value.isSome ∧
      exactNumber (sortKey record).value = some ((measured record).value.getD 0) := by
  rw [value_measured numeric, sortKey]
  generalize rawValue record = value at numeric
  cases value with
  | null => exact ⟨rfl, rfl⟩
  | int value =>
    refine ⟨rfl, ?_⟩
    by_cases zero : value = 0
    · rw [zero]
      rfl
    · rw [if_pos (by simpa [Json.truthy] using zero)]
      rfl
  | float value =>
    cases value with
    | finite negative magnitude =>
      refine ⟨rfl, ?_⟩
      by_cases zero : magnitude = 0
      · rw [zero]
        cases negative <;> rfl
      · rw [if_pos (by simpa [Json.truthy] using zero)]
        rfl
    | _ => cases numeric
  | _ => cases numeric

theorem less_sortKey {one other : Record} (numeric : isNumeric (rawValue one) = true)
    (numericOther : isNumeric (rawValue other) = true) :
    (sortKey one).less (sortKey other) = .ok (decide ((measured one).sortKey < (measured other).sortKey)) := by
  obtain ⟨present, exactly⟩ := sortKey_numeric numeric
  obtain ⟨presentOther, exactlyOther⟩ := sortKey_numeric numericOther
  rw [SortKey.less, present, presentOther, Measured.sortKey, Measured.sortKey]
  generalize (measured one).value = value at exactly
  generalize (measured other).value = value' at exactlyOther
  by_cases different : value.isSome ≠ value'.isSome
  · rw [if_pos different]
    congr 1
    rw [Bool.eq_iff_iff, decide_eq_true_eq, Prod.Lex.toLex_lt_toLex]
    cases value <;> cases value' <;> simp_all
  · rw [if_neg different]
    have same : value.isSome = value'.isSome := not_not.mp different
    have compared : (toLex (value.isSome, value.getD 0) : Bool ×ₗ ℚ) < toLex (value'.isSome, value'.getD 0) ↔
        value.getD 0 < value'.getD 0 := by
      rw [Prod.Lex.toLex_lt_toLex, same]
      simp
    rw [decide_eq_decide.mpr compared]
    split
    next equal =>
      have notLess := (eq_of_pyEq exactly exactlyOther equal).not_lt
      rw [decide_eq_false notLess]
    next => exact pyLess_numeric exactly exactlyOther

theorem shown_numeric {record : Record} (numeric : isNumeric (rawValue record) = true) :
    shown (rawValue record) = some (measured record).value := by
  rw [value_measured numeric, shown]
  split
  next missing => rw [missing]; rfl
  next present =>
    rw [isNumeric, Bool.or_eq_true, decide_eq_true_eq, or_iff_right present] at numeric
    obtain ⟨number, exactly⟩ := Option.isSome_iff_exists.mp numeric
    rw [exactly, Option.map_some]

def entries (limit : Nat) (sourceRecords : List Record) : List RawRanked :=
  ((Ranking.descending (fun record => (measured record).sortKey) sourceRecords).take limit).mapIdx
    fun index record => ⟨record.id, record.timestamp.isoformat, rawValue record, index + 1⟩

variable {records : List Record} (limit : Nat)

theorem topRecords_ok (numeric : ∀ record ∈ records, isNumeric (rawValue record) = true) :
    topRecords sorting limit records = .ok (entries limit records) := by
  have sorted : sorting.sort (fun first second => (sortKey first).less (sortKey second)) records =
      .ok (Ranking.descending (fun record => (measured record).sortKey) records) :=
    sorting.sorts fun one member other otherMember => less_sortKey (numeric one member) (numeric other otherMember)
  rw [topRecords, sorted]
  rfl

theorem ranked_entries (numeric : ∀ record ∈ records, isNumeric (rawValue record) = true) :
    (entries limit records).map RawRanked.ranked =
      (Ingestor.topRecords limit (records.map measured)).map some := by
  rw [entries, Ingestor.topRecords, Ranking.descending_map, ← List.map_take, Ranking.map_mapIdx, Ranking.map_mapIdx]
  apply List.ext_getElem?
  intro index
  rw [List.getElem?_mapIdx, List.getElem?_mapIdx, List.getElem?_map]
  cases found : ((Ranking.descending (fun record => (measured record).sortKey) records).take limit)[index]? with
  | none => rfl
  | some record =>
    have member := (Ranking.descending_perm _ _).mem_iff.mp (List.mem_of_mem_take (List.mem_of_getElem? found))
    simp only [Option.map_some, RawRanked.ranked, shown_numeric (numeric record member), id_measured,
      timestamp_measured]

theorem getTopBySource_ok {rows : List Record}
    (numeric : ∀ record ∈ rows, record.Active → isNumeric (rawValue record) = true) (now : DateTime) (hours : Nat) :
    ∃ answer, getTopBySource sorting rows now limit hours = .ok answer ∧
      ReadsAs answer (Ingestor.getTopBySource (rows.map measured) now limit hours) := by
  let recent := rows.filter fun record => record.deletedAt = none && isRecent now hours record.timestamp
  let groups := Grouping.collect (fun record : Record => record.source)
    (Ranking.descending (fun record : Record => record.timestamp) recent)
  have fine : ∀ group ∈ groups, ∀ record ∈ group.2, isNumeric (rawValue record) = true := by
    intro group listed record member
    have kept := List.mem_filter.mp
      ((Ranking.descending_perm _ _).mem_iff.mp ((Grouping.group_sublist listed).subset member))
    exact numeric record kept.1 (of_decide_eq_true (Bool.and_eq_true_iff.mp kept.2).1)
  refine ⟨groups.map fun group => (group.1, entries limit group.2), ?_, ?_⟩
  · apply mapM_ok
    intro group listed
    obtain ⟨source, members⟩ := group
    simp only [topRecords_ok sorting limit (fine _ listed)]
    rfl
  · have sameTime : (fun record => (measured record).timestamp) = fun record : Record => record.timestamp := by
      funext record
      rw [timestamp_measured]
    have sameSource : (fun record => (measured record).source) = fun record : Record => record.source := by
      funext record
      rw [source_measured]
    rw [ReadsAs, Ingestor.getTopBySource,
      filter_measured rows fun deletedAt timestamp => deletedAt = none && isRecent now hours timestamp]
    simp only [Ranking.descending_map, sameTime]
    rw [Grouping.collect_map, sameSource, List.map_map, List.map_map, List.map_map]
    apply List.map_congr_left
    intro group listed
    simp only [Function.comp_apply, ranked_entries limit (fine group listed)]

end

/-! ## What an answer tells about the values -/

section

variable {floatOfText} {sorting} {rows : List Record} {record : Record}

theorem isNumeric_of_shown {value : Json} {number : Option ℚ} (read : shown value = some number) :
    isNumeric value = true := by
  unfold shown at read
  split at read
  next missing => rw [missing]; rfl
  next =>
    obtain ⟨exactly, found, -⟩ := Option.map_eq_some_iff.mp read
    rw [isNumeric, found]
    exact Bool.or_true _

theorem mem_topRecords {records : List Record} {limit : Nat} {top : List RawRanked}
    (computed : topRecords sorting limit records = .ok top) (room : records.length ≤ limit)
    (member : record ∈ records) : ∃ entry ∈ top, entry.value = rawValue record := by
  rw [topRecords] at computed
  cases ordered : sorting.sort (fun first second => (sortKey first).less (sortKey second)) records with
  | error error => rw [ordered] at computed; cases computed
  | ok sorted =>
    rw [ordered] at computed
    have shape := Except.ok.inj computed
    have perm := sorting.perm ordered
    rw [List.take_of_length_le (perm.length_eq.trans_le room)] at shape
    obtain ⟨index, inside, found⟩ := List.getElem_of_mem (perm.mem_iff.mpr member)
    refine ⟨⟨record.id, record.timestamp.isoformat, rawValue record, index + 1⟩, ?_, rfl⟩
    rw [← shape, List.mem_mapIdx]
    exact ⟨index, inside, by rw [found]⟩

theorem isNumeric_of_readsAs {answer : List (String × List RawRanked)}
    {expected : List (String × List RankedRecord)} (same : ReadsAs answer expected)
    {group : String × List RawRanked} (answered : group ∈ answer) {entry : RawRanked} (entered : entry ∈ group.2) :
    isNumeric entry.value = true := by
  have read : (group.1, group.2.map RawRanked.ranked) ∈
      answer.map fun group => (group.1, group.2.map RawRanked.ranked) :=
    List.mem_map.mpr ⟨group, answered, rfl⟩
  rw [same] at read
  obtain ⟨other, -, alike⟩ := List.mem_map.mp read
  have entries : other.2.map some = group.2.map RawRanked.ranked := congrArg Prod.snd alike
  have among : entry.ranked ∈ other.2.map some := by
    rw [entries]
    exact List.mem_map.mpr ⟨entry, entered, rfl⟩
  obtain ⟨ranked, -, reads⟩ := List.mem_map.mp among
  obtain ⟨number, told, -⟩ := Option.map_eq_some_iff.mp reads.symm
  exact isNumeric_of_shown told

theorem isNumeric_of_reads (reads : Reads floatOfText sorting rows) (member : record ∈ rows)
    (active : record.Active) : isNumeric (rawValue record) = true := by
  obtain ⟨answer, computed, same⟩ := reads.topBySource record.timestamp rows.length 1 (by decide)
  let recent := rows.filter fun other => other.deletedAt = none && isRecent record.timestamp 1 other.timestamp
  have perm : (Ranking.descending (fun record : Record => record.timestamp) recent).Perm recent :=
    Ranking.descending_perm _ _
  have listed : record ∈ recent := by
    apply List.mem_filter.mpr
    refine ⟨member, ?_⟩
    rw [Bool.and_eq_true, decide_eq_true_eq]
    exact ⟨active, by simp [isRecent]⟩
  obtain ⟨⟨source, members⟩, grouped, inside⟩ :=
    Grouping.exists_group (fun record : Record => record.source) (perm.mem_iff.mpr listed)
  have room : members.length ≤ rows.length := calc
    members.length ≤ recent.length := (Grouping.group_sublist grouped).length_le.trans_eq perm.length_eq
    _ ≤ rows.length := List.length_filter_le _ _
  obtain ⟨group, answered, finished⟩ := ok_of_mapM computed _ grouped
  cases ranked : topRecords sorting rows.length members with
  | error error => simp only [ranked] at finished; cases finished
  | ok top =>
    simp only [ranked] at finished
    have shape : (source, top) = group := Except.ok.inj finished
    obtain ⟨entry, entered, value⟩ := mem_topRecords ranked room inside
    rw [← value]
    rw [← shape] at answered
    exact isNumeric_of_readsAs same answered entered

theorem pyFloat_of_hourStats {hour : DateTime} {records : List Record} {stats : RawStats}
    (computed : hourStats floatOfText hour records = .ok stats) (member : record ∈ records)
    (present : rawValue record ≠ .null) : ∃ number, pyFloat floatOfText (rawValue record) = .ok number := by
  rw [hourStats] at computed
  cases read : values floatOfText records with
  | error error => rw [read] at computed; cases computed
  | ok numbers =>
    rw [values] at read
    have listed : rawValue record ∈ (records.map rawValue).filter fun value => value ≠ .null :=
      List.mem_filter.mpr ⟨List.mem_map.mpr ⟨record, member, rfl⟩, decide_eq_true present⟩
    obtain ⟨number, -, converted⟩ := ok_of_mapM read _ listed
    exact ⟨number, converted⟩

/-- The statistics convert the values of all active records, if there is room for all hours. -/
theorem pyFloat_of_reads (reads : Reads floatOfText sorting rows) (member : record ∈ rows) (active : record.Active)
    (present : rawValue record ≠ .null) : ∃ number, pyFloat floatOfText (rawValue record) = .ok number := by
  let actives := rows.filter fun record => record.deletedAt = none
  have computed := reads.statsFromBase (hourly actives).length
  rw [computeStatsFromBase, List.take_length] at computed
  have listed : record ∈ actives := List.mem_filter.mpr ⟨member, decide_eq_true active⟩
  have ordered : record ∈ actives.insertionSort fun first second => first.timestamp ≤ second.timestamp :=
    (List.mem_insertionSort _).mpr listed
  obtain ⟨⟨hour, members⟩, grouped, inside⟩ :=
    Grouping.exists_group (fun record : Record => hourOf record.timestamp) ordered
  have among : (hour, members) ∈ hourly actives := (List.perm_insertionSort _ _).mem_iff.mpr grouped
  obtain ⟨entry, -, finished⟩ := ok_of_mapM computed _ among
  cases made : hourStats floatOfText hour members with
  | error error => simp only [made] at finished; cases finished
  | ok stats => exact pyFloat_of_hourStats made inside present

theorem isReadable_of_reads (reads : Reads floatOfText sorting rows) (member : record ∈ rows)
    (active : record.Active) : isReadable (rawValue record) = true := by
  have numeric := isNumeric_of_reads reads member active
  by_cases missing : rawValue record = .null
  · rw [missing]
    rfl
  · obtain ⟨number, converted⟩ := pyFloat_of_reads reads member active missing
    cases value : rawValue record with
    | int value' =>
      rw [value, pyFloat] at converted
      split at converted
      next small =>
        rw [isReadable, decide_eq_true_eq]
        exact small
      next => cases converted
    | float value' =>
      rw [value] at numeric
      cases value' with
      | finite negative magnitude => rfl
      | _ => cases numeric
    | null => rfl
    | _ => rw [value] at numeric; cases numeric

end

/-- The endpoints can read what has been ingested exactly if every value of an active
record is missing or a number that `float` has room for. -/
theorem reads_iff (floatOfText : Text → Option Reading) (sorting : Sorting ReadError) (rows : List Record) :
    Reads floatOfText sorting rows ↔
      ∀ record ∈ rows, record.Active → isReadable (rawValue record) = true := by
  constructor
  · intro reads record member active
    exact isReadable_of_reads reads member active
  · intro readable
    have numeric : ∀ record ∈ rows, record.Active → isNumeric (rawValue record) = true :=
      fun record member active => isNumeric_of_readable (readable record member active)
    exact {
      summary := fun now hours _ => getSummary_ok floatOfText readable now hours
      topBySource := fun now limit hours _ => getTopBySource_ok sorting limit numeric now hours
      statsFromBase := computeStatsFromBase_ok floatOfText readable }

def wordReading : Record := Record.ofRequest
  ⟨"sensor", january 8, [(Text.ofString "value", .str (Text.ofString "abc"))], []⟩ freshOne

theorem not_reads_word :
    computeStatsFromBase (fun _ => none) [wordReading] 24 = .error .valueError ∧
      ¬ Reads (fun _ => none) Sorting.byInsertion [wordReading] := by
  constructor
  · decide +kernel
  · intro reads
    have readable : isReadable (rawValue wordReading) = true :=
      isReadable_of_reads reads List.mem_cons_self rfl
    revert readable
    decide +kernel

end DataPipeline.Ingestor.RawAnalytics
