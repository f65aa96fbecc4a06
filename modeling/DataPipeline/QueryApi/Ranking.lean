import DataPipeline.Ingestor.Ranking
import DataPipeline.QueryApi.Analytics

/-! The rankings of `services/query_api/routers/analytics.py`, against those of the ingestor.

Both read the same table. Here the database ranks, by a number that is zero
where there is no value, and records of one number share a rank.
-/

set_option autoImplicit false

namespace DataPipeline.QueryApi

open Ingestor Encoding Calendar Rounding

/-- `COALESCE((raw_data->>'value')::NUMERIC, 0)` -/
def number (record : Measured) : ℚ := record.value.getD 0

structure RankedRow where
  id : Int
  source : String
  timestamp : DateTime
  value : ℚ
  processed : Bool
  rank : Nat

def rankedRow (records : List Measured) (record : Measured) : RankedRow where
  id := record.id
  source := record.source
  timestamp := record.timestamp
  value := number record
  processed := record.processed
  rank := Ranking.rank number (records.filter fun other => other.source = record.source) record

structure RankedEntry where
  id : Int
  timestamp : Text
  value : Option ℚ
  processed : Bool
  rank : Nat
  deriving DecidableEq

def rankedEntry (row : RankedRow) : RankedEntry :=
  ⟨row.id, row.timestamp.isoformat, floatOrNone (some row.value), row.processed, row.rank⟩

/-- The dict `by_source` of `get_top_by_source`. The database reads the table in
some order and sorts sources by its collation. -/
def getTopBySource (collation : String → String → Bool) (scan : List Measured) (now : DateTime) (limit hours : Nat) :
    List (String × List RankedEntry) :=
  let recent := scan.filter fun record => record.deletedAt = none && isRecent now hours record.timestamp
  let rows := ((recent.map (rankedRow recent)).filter fun row => row.rank ≤ limit).insertionSort
    fun first second =>
      if first.source = second.source then first.rank ≤ second.rank else collation first.source second.source
  (Grouping.collect RankedRow.source rows).map fun (source, rows) => (source, rows.map rankedEntry)

/-- `PERCENT_RANK() OVER (ORDER BY value DESC)` -/
def percentRank (records : List Measured) (record : Measured) : ℚ :=
  if records.length ≤ 1 then 0
  else ((Ranking.rank number records record - 1 : Nat) : ℚ) / (records.length - 1 : Nat)

structure PercentileEntry where
  id : Int
  source : String
  timestamp : Text
  value : Option ℚ
  processed : Bool
  percentileRank : ℚ
  deriving DecidableEq

structure PercentileAnswer where
  source : String
  count : Nat
  records : List PercentileEntry
  deriving DecidableEq

def percentileEntry (records : List Measured) (record : Measured) : PercentileEntry where
  id := record.id
  source := record.source
  timestamp := record.timestamp.isoformat
  value := floatOrNone (some (number record))
  processed := record.processed
  percentileRank := toDecimals awayFromZero 4 (percentRank records record)

def getPercentile (scan : List Measured) (source : String) : PercentileAnswer :=
  let records := activeOf scan source
  let rows := ((records.map (percentileEntry records)).insertionSort
    fun first second => first.percentileRank ≤ second.percentileRank).take 100
  ⟨source, rows.length, rows⟩

/-! ## Agreement -/

/-- Under every source the two answers list the same records with the same ranks. -/
def TopAgrees (collation : String → String → Bool) (rows scan : List Measured) (now : DateTime) (limit hours : Nat) :
    Prop :=
  ∀ source,
    ((entriesOf (Ingestor.getTopBySource rows now limit hours) source).map fun entry => (entry.id, entry.rank)).Perm
      ((entriesOf (getTopBySource collation scan now limit hours) source).map fun entry => (entry.id, entry.rank))

/-- The two answers list the same records with the same percentile ranks. -/
def PercentilesAgree (rows scan : List Measured) (source : String) : Prop :=
  ((Ingestor.getPercentile rows source).records.map fun record => (record.id, record.percentileRank)).Perm
    ((getPercentile scan source).records.map fun record => (record.id, record.percentileRank))

/-- In whatever order the database reads the table. -/
def RankingsAgree (collation : String → String → Bool) (store : MeasuredStore) (now : DateTime) (limit hours : Nat)
    (source : String) : Prop :=
  ∀ scan, scan.Perm store.rows →
    TopAgrees collation store.rows scan now limit hours ∧ PercentilesAgree store.rows scan source

/-- What the records of one source must be like: of those with fewer than `limit`
numbers above theirs, each has its number for itself, and a missing value does
not stand above negative ones. -/
def SameRanks (limit : Nat) (records : List Measured) : Prop :=
  ∀ record ∈ records, records.countP (fun other => number record < number other) < limit →
    (∀ other ∈ records, number other = number record → other.id = record.id) ∧
      (record.value = none → ∀ other ∈ records, 0 ≤ number other)

/-- All fit into the answer, numbers grow with time, and no rank is half-way between two decimals. -/
def SamePercentiles (records : List Measured) : Prop :=
  records.length ≤ 100 ∧
    (∀ earlier ∈ records, ∀ later ∈ records, earlier.timestamp < later.timestamp → number earlier < number later) ∧
    (records.length ≤ 1 ∨ ¬ 32 ∣ records.length - 1)

/-! ## Ranks of the highest records -/

theorem rank_rankedRow {recent : List Measured} {record : Measured} {source : String} (own : record.source = source) :
    (rankedRow recent record).rank =
      Ranking.rank number (recent.filter fun other => other.source = source) record := by
  rw [← own]
  rfl

theorem filter_rankedRow (recent : List Measured) (limit : Nat) (source : String) :
    ((recent.map (rankedRow recent)).filter fun row => row.rank ≤ limit).filter (fun row => row.source = source) =
      (Ranking.top number limit (recent.filter fun record => record.source = source)).map (rankedRow recent) := by
  rw [Ranking.top, List.filter_map, List.filter_map, List.filter_filter, List.filter_filter]
  apply congrArg (List.map (rankedRow recent))
  apply List.filter_congr
  intro record _
  rw [Bool.and_comm, Bool.eq_iff_iff, Bool.and_eq_true, Bool.and_eq_true]
  simp only [Function.comp_apply, decide_eq_true_eq]
  apply and_congr_left
  intro own
  rw [rank_rankedRow own]

theorem ranks_getTopBySource (collation : String → String → Bool) (scan : List Measured) (now : DateTime)
    (limit hours : Nat) (source : String) :
    ((entriesOf (getTopBySource collation scan now limit hours) source).map fun entry => (entry.id, entry.rank)).Perm
      (Ranking.numbered (fun record : Measured => record.id) number limit (recentOf scan now hours source)) := by
  unfold getTopBySource recentOf
  generalize scan.filter (fun record => record.deletedAt = none && isRecent now hours record.timestamp) = recent
  dsimp only
  rw [entriesOf_collect RankedRow.source (by simp) _ source, List.map_map]
  refine (((List.perm_insertionSort _ _).filter _).map _).trans (List.Perm.of_eq ?_)
  rw [filter_rankedRow, List.map_map, Ranking.numbered]
  apply List.map_congr_left
  intro record listed
  have own := (List.mem_filter.mp (Ranking.mem_top.mp listed).1).2
  exact Prod.ext rfl (rank_rankedRow (of_decide_eq_true own))

variable {records : List Measured} {record other : Measured} {limit : Nat}

theorem number_of_missing (missing : record.value = none) : number record = 0 := by
  rw [number, missing, Option.getD_none]

/-- What comes before a record in the order of the ingestor: a record with a value
before one without, then the greater number, then the later one. -/
theorem fullKey_lt_iff : record.fullKey < other.fullKey ↔
    (record.value = none ∧ other.value ≠ none) ∨
      ((record.value = none ↔ other.value = none) ∧
        (number record < number other ∨ number record = number other ∧ record.timestamp < other.timestamp)) := by
  simp only [Measured.fullKey, Measured.sortKey, Prod.Lex.toLex_lt_toLex, number, toLex_inj, Prod.mk.injEq]
  cases record.value <;> cases other.value <;> simp

theorem fullKey_lt_of_number (alike : record.value = none ↔ other.value = none)
    (different : number other ≠ number record) : record.fullKey < other.fullKey ↔ number record < number other := by
  rw [fullKey_lt_iff]
  constructor
  · rintro (⟨missing, present⟩ | ⟨-, less | ⟨same, -⟩⟩)
    · exact absurd (alike.mp missing) present
    · exact less
    · exact absurd same.symm different
  · intro less
    exact .inr ⟨alike, .inl less⟩

theorem SameRanks.rank_eq (same : SameRanks limit records) (ids : (records.map fun record => record.id).Nodup)
    (member : record ∈ records) (within : Ranking.rank number records record ≤ limit) :
    Ranking.rank Measured.fullKey records record = Ranking.rank number records record := by
  obtain ⟨alone, above⟩ := same record member within
  apply congrArg Nat.succ
  apply List.countP_congr
  intro other otherMember
  rw [decide_eq_true_eq, decide_eq_true_eq]
  by_cases self : other.id = record.id
  · cases List.inj_on_of_nodup_map ids otherMember member self
    exact iff_of_false (lt_irrefl _) (lt_irrefl _)
  have different : number other ≠ number record := fun equal => self (alone other otherMember equal)
  by_cases missing : record.value = none
  · have zero := number_of_missing missing
    have present : other.value ≠ none := fun none => different ((number_of_missing none).trans zero.symm)
    have positive : 0 < number other := lt_of_le_of_ne (above missing other otherMember) (zero ▸ different.symm)
    exact iff_of_true (fullKey_lt_iff.mpr (.inl ⟨missing, present⟩)) (zero.symm ▸ positive)
  · by_cases otherMissing : other.value = none
    · have zero := number_of_missing otherMissing
      refine iff_of_false (fun before => ?_) (fun less => ?_)
      · rcases fullKey_lt_iff.mp before with ⟨none, -⟩ | ⟨alike, -⟩
        · exact missing none
        · exact missing (alike.mpr otherMissing)
      · -- The missing value would be within the limit too, above a negative one.
        have otherWithin : Ranking.rank number records other ≤ limit := (Ranking.rank_le less.le).trans within
        have nonneg := (same other otherMember otherWithin).2 otherMissing record member
        rw [zero] at less
        exact absurd nonneg (not_le.mpr less)
    · exact fullKey_lt_of_number (iff_of_false missing otherMissing) different

theorem sameRanks_iff (ids : (records.map fun record => record.id).Nodup)
    (distinct : (records.map Measured.fullKey).Nodup) :
    (∀ record ∈ records, Ranking.rank number records record ≤ limit →
      Ranking.rank Measured.fullKey records record = Ranking.rank number records record) ↔ SameRanks limit records := by
  constructor
  · intro agree record member within
    refine ⟨fun other otherMember equal => ?_, fun missing other otherMember => ?_⟩
    · have sameRank : Ranking.rank number records other = Ranking.rank number records record := by
        rw [Ranking.rank, Ranking.rank, equal]
      have otherAgrees := agree other otherMember (sameRank.le.trans within)
      have sameKey := Ranking.key_eq_of_rank_eq otherMember member
        (otherAgrees.trans (sameRank.trans (agree record member within).symm))
      rw [List.inj_on_of_nodup_map distinct otherMember member sameKey]
    · by_contra negative
      rw [not_le] at negative
      have zero := number_of_missing missing
      have present : other.value ≠ none := fun none => negative.ne (number_of_missing none)
      -- The negative number counts for the ingestor and not for the query.
      have fewer : Ranking.rank number records record < Ranking.rank Measured.fullKey records record := by
        apply Nat.succ_lt_succ
        apply Ranking.countP_lt _ otherMember (decide_eq_false (zero.symm ▸ not_lt.mpr negative.le))
          (decide_eq_true (fullKey_lt_iff.mpr (.inl ⟨missing, present⟩)))
        intro third _ greater
        have positive := of_decide_eq_true greater
        rw [zero] at positive
        have thirdPresent : third.value ≠ none := fun none => positive.ne (number_of_missing none).symm
        exact decide_eq_true (fullKey_lt_iff.mpr (.inl ⟨missing, thirdPresent⟩))
      exact fewer.ne (agree record member within).symm
  · intro same record member within
    exact same.rank_eq ids member within

theorem topAgrees_iff (collation : String → String → Bool) (store : MeasuredStore) {scan : List Measured}
    (perm : scan.Perm store.rows) (now : DateTime) (limit hours : Nat) :
    TopAgrees collation store.rows scan now limit hours ↔
      ∀ source, SameRanks limit (recentOf store.rows now hours source) := by
  apply forall_congr'
  intro source
  have ids := nodup_ids (recentOf_sublist store source now hours)
  have distinct := nodup_fullKey (nodup_timestamps (recentOf_sublist store source now hours) source_of_recentOf)
  have scanned : (recentOf scan now hours source).Perm (recentOf store.rows now hours source) :=
    (perm.filter _).filter _
  have first := Ingestor.ranks_getTopBySource store now limit hours source
  have second := (ranks_getTopBySource collation scan now limit hours source).trans
    (Ranking.numbered_perm (fun record : Measured => record.id) scanned)
  rw [← sameRanks_iff ids distinct, ← Ranking.numbered_perm_iff ids distinct]
  exact ⟨fun same => first.symm.trans (same.trans second), fun same => first.trans (same.trans second.symm)⟩

/-! ## Percentile ranks -/

/-- The number of a record among those of the source, the latest first, as a part of them. -/
def percentile (records : List Measured) (record : Measured) : ℚ :=
  if records.length ≤ 1 then 0
  else toDecimals toEven 4
    (((Ranking.rank (fun other : Measured => other.timestamp) records record - 1 : Nat) : ℚ) /
      (records.length - 1 : Nat))

theorem percentiles_of_few (times : (records.map fun record => record.timestamp).Nodup) (few : records.length ≤ 100) :
    (((Ranking.descending (fun record : Measured => record.timestamp) records).take 100).mapIdx fun index record =>
        (record.id, if records.length ≤ 1 then (0 : ℚ)
          else toDecimals toEven 4 ((index : ℚ) / (records.length - 1 : Nat)))).Perm
      (records.map fun record => (record.id, percentile records record)) := by
  have whole := (Ranking.descending_perm (fun record : Measured => record.timestamp) records).length_eq
  rw [List.take_of_length_le (whole.trans_le few)]
  have numbers := Ranking.mapIdx_descending (fun record place => (record.id, if records.length ≤ 1 then (0 : ℚ)
    else toDecimals toEven 4 (((place - 1 : Nat) : ℚ) / (records.length - 1 : Nat)))) times
  simp only [Nat.add_sub_cancel] at numbers
  rw [numbers]
  exact (Ranking.descending_perm _ records).map _

theorem rank_pred_le (keyOf : Measured → DateTime) (record : Measured) (member : record ∈ records) :
    Ranking.rank keyOf records record - 1 ≤ records.length - 1 := by
  have within : records.countP (fun other => keyOf record < keyOf other) < records.length := by
    refine lt_of_lt_of_le (Ranking.countP_lt (fun _ _ _ => rfl) member (decide_eq_false (lt_irrefl _)) rfl) ?_
    exact List.countP_le_length (p := fun _ => true)
  exact Nat.le_sub_one_of_lt within

theorem rank_eq_of_growing (times : (records.map fun record => record.timestamp).Nodup)
    (growing : ∀ earlier ∈ records, ∀ later ∈ records, earlier.timestamp < later.timestamp →
      number earlier < number later) (member : record ∈ records) :
    Ranking.rank (fun other : Measured => other.timestamp) records record = Ranking.rank number records record := by
  apply congrArg Nat.succ
  apply List.countP_congr
  intro other otherMember
  rw [decide_eq_true_eq, decide_eq_true_eq]
  refine ⟨growing record member other otherMember, fun less => ?_⟩
  rcases lt_trichotomy record.timestamp other.timestamp with later | same | earlier
  · exact later
  · cases List.inj_on_of_nodup_map times member otherMember same
    exact absurd less (lt_irrefl _)
  · exact absurd less (growing other otherMember record member earlier).not_gt

theorem samePercentiles_iff (times : (records.map fun record => record.timestamp).Nodup) (few : records.length ≤ 100) :
    (∀ record ∈ records, percentile records record = toDecimals awayFromZero 4 (percentRank records record)) ↔
      SamePercentiles records := by
  by_cases single : records.length ≤ 1
  · have alone : ∀ earlier ∈ records, ∀ later ∈ records, earlier.timestamp < later.timestamp →
        number earlier < number later := by
      intro earlier earlierMember later laterMember before
      obtain ⟨only, rfl⟩ | rfl : (∃ only, records = [only]) ∨ records = [] := by
        rcases Nat.le_one_iff_eq_zero_or_eq_one.mp single with none | one
        · exact .inr (List.length_eq_zero_iff.mp none)
        · exact .inl (List.length_eq_one_iff.mp one)
      · rw [List.mem_singleton] at earlierMember laterMember
        rw [earlierMember, laterMember] at before
        exact absurd before (lt_irrefl _)
      · cases earlierMember
    simp only [percentile, percentRank, if_pos single, toDecimals_zero, implies_true, true_iff]
    exact ⟨few, alone, .inl single⟩
  · have positive : 0 < records.length - 1 := by omega
    have small : records.length - 1 < 10 ^ 4 := by omega
    simp only [percentile, percentRank, if_neg single]
    constructor
    · intro agree
      have sameRank : ∀ record ∈ records,
          Ranking.rank (fun other : Measured => other.timestamp) records record =
            Ranking.rank number records record := by
        intro record member
        have same := toDecimals_fraction_inj positive small (agree record member)
        rw [Ranking.rank, Ranking.rank] at same ⊢
        omega
      refine ⟨few, fun earlier earlierMember later laterMember before => ?_, .inr ?_⟩
      · -- A later record is before an earlier one in time, and so in number.
        by_contra notLess
        have order : Ranking.rank (fun other : Measured => other.timestamp) records later <
            Ranking.rank (fun other : Measured => other.timestamp) records earlier := Ranking.rank_lt laterMember before
        have back : Ranking.rank number records earlier ≤ Ranking.rank number records later :=
          Ranking.rank_le (not_lt.mp notLess)
        rw [sameRank later laterMember, sameRank earlier earlierMember] at order
        omega
      · apply (fractions_agree_iff positive 4).mp
        intro place within
        -- Every place is taken by some record.
        have order := Ranking.sorted_descending times
        have perm := Ranking.descending_perm (fun record : Measured => record.timestamp) records
        have inside : place < (Ranking.descending (fun record : Measured => record.timestamp) records).length := by
          rw [perm.length_eq]
          omega
        have member := perm.mem_iff.mp (List.getElem_mem inside)
        have placed := Ranking.rank_getElem order place inside
        rw [Ranking.rank_perm perm] at placed
        have agrees := agree _ member
        rw [← sameRank _ member, placed, Nat.add_sub_cancel] at agrees
        exact agrees.symm
    · rintro ⟨-, growing, none | odd⟩ record member
      · exact absurd none single
      · rw [← rank_eq_of_growing times growing member]
        exact ((fractions_agree_iff positive 4).mpr odd _ (rank_pred_le _ record member)).symm

/-- Of more than a hundred records the ingestor gives the earliest it lists the
last rank, and the query gives none of those it lists a rank near that. -/
theorem percentiles_of_many (times : (records.map fun record => record.timestamp).Nodup) (many : 100 < records.length)
    {listed : List Measured} (perm : listed.Perm records) :
    ¬ (((Ranking.descending (fun record : Measured => record.timestamp) listed).take 100).mapIdx fun index record =>
        (record.id, toDecimals toEven 4 ((index : ℚ) / (99 : Nat)))).Perm
      ((((records.map (percentileEntry records)).insertionSort
        fun first second => first.percentileRank ≤ second.percentileRank).take 100).map
          fun row => (row.id, row.percentileRank)) := by
  intro same
  have rows := ((Ranking.descending_perm (fun record : Measured => record.timestamp) listed).trans perm).length_eq
  have inside : 99 < ((Ranking.descending (fun record : Measured => record.timestamp) listed).take 100).length := by
    rw [List.length_take, rows]
    omega
  obtain ⟨row, member, last⟩ := List.mem_map.mp (same.mem_iff.mp (List.mem_mapIdx.mpr ⟨99, inside, rfl⟩))
  -- A hundred rows have a rank of at most a hundred, and the listed ones are the least.
  have bound : row.percentileRank ≤ 99005 / 100000 := by
    apply Ranking.le_of_mem_take PercentileEntry.percentileRank
      (List.pairwise_insertionSort (fun first second : PercentileEntry => first.percentileRank ≤ second.percentileRank)
        (records.map (percentileEntry records))) _ member
    rw [(List.perm_insertionSort _ _).countP_eq, List.countP_map]
    have enough := Ranking.le_length_top times number 100
    rw [Nat.min_eq_left many.le, Ranking.top, ← List.countP_eq_length_filter] at enough
    refine enough.trans (List.countP_mono_left fun record _ within => ?_)
    rw [decide_eq_true_eq] at within
    have positive : (0 : ℚ) < (records.length - 1 : Nat) := Nat.cast_pos.mpr (by omega)
    have atMost : percentRank records record ≤ 99 / 100 := by
      have rank : ((Ranking.rank number records record - 1 : Nat) : ℚ) ≤ 99 := by
        exact_mod_cast (by omega : Ranking.rank number records record - 1 ≤ 99)
      have length : (100 : ℚ) ≤ (records.length - 1 : Nat) := by
        exact_mod_cast (by omega : 100 ≤ records.length - 1)
      rw [percentRank, if_neg (by omega), div_le_div_iff₀ positive (by norm_num)]
      nlinarith
    have nonneg : 0 ≤ percentRank records record := by
      rw [percentRank, if_neg (by omega)]
      positivity
    have near : |toDecimals awayFromZero 4 (percentRank records record) - percentRank records record| * 10 ^ 4 ≤
        1 / 2 := toDecimals_near nonneg
    rw [Function.comp_apply, decide_eq_true_eq]
    have above := (le_abs_self _).trans ((le_div_iff₀ (by norm_num)).mpr near)
    change toDecimals awayFromZero 4 (percentRank records record) ≤ _
    linarith
  have one : toDecimals toEven 4 ((99 : Nat) / (99 : Nat)) = 1 := by decide +kernel
  have shown : row.percentileRank = 1 := (congrArg Prod.snd last).trans one
  rw [shown] at bound
  norm_num at bound

theorem percentilesAgree_iff (store : MeasuredStore) {scan : List Measured} (perm : scan.Perm store.rows)
    (source : String) :
    PercentilesAgree store.rows scan source ↔ SamePercentiles (activeOf store.rows source) := by
  have times := nodup_timestamps (activeOf_sublist store source) source_of_activeOf
  have ids := nodup_ids (activeOf_sublist store source)
  have scanned : (activeOf scan source).Perm (activeOf store.rows source) := perm.filter _
  have scannedTimes := (scanned.map fun record => record.timestamp).nodup_iff.mpr times
  have total : ((Ranking.descending (fun record : Measured => record.timestamp) (activeOf store.rows source)).take
      100).length = min 100 (activeOf store.rows source).length := by
    rw [List.length_take, (Ranking.descending_perm _ _).length_eq]
  have inPython :
      (Ingestor.getPercentile store.rows source).records.map (fun record => (record.id, record.percentileRank)) =
      ((Ranking.descending (fun record : Measured => record.timestamp) (activeOf store.rows source)).take 100).mapIdx
        fun index record => (record.id, if min 100 (activeOf store.rows source).length ≤ 1 then (0 : ℚ)
          else toDecimals toEven 4 ((index : ℚ) / (min 100 (activeOf store.rows source).length - 1 : Nat))) := by
    rw [← total]
    exact Ranking.map_mapIdx _ _ _
  rw [PercentilesAgree, inPython]
  by_cases few : (activeOf store.rows source).length ≤ 100
  · have samePercent : percentRank (activeOf scan source) = percentRank (activeOf store.rows source) := by
      funext record
      rw [percentRank, percentRank, scanned.length_eq, Ranking.rank_perm scanned]
    have inSql : ((getPercentile scan source).records.map fun record => (record.id, record.percentileRank)).Perm
        ((activeOf store.rows source).map fun record =>
          (record.id, toDecimals awayFromZero 4 (percentRank (activeOf store.rows source) record))) := by
      rw [getPercentile, List.take_of_length_le]
      · refine ((List.perm_insertionSort _ _).map _).trans ?_
        rw [List.map_map, ← samePercent]
        exact scanned.map _
      · rw [List.length_insertionSort, List.length_map, scanned.length_eq]
        exact few
    rw [Nat.min_eq_right few, ← samePercentiles_iff times few, ← Ranking.labelled_perm_iff ids]
    have first := percentiles_of_few times few
    exact ⟨fun same => first.symm.trans (same.trans inSql), fun same => first.trans (same.trans inSql.symm)⟩
  · have many : 100 < (activeOf store.rows source).length := Nat.lt_of_not_le few
    refine iff_of_false (fun same => ?_) fun same => few same.1
    rw [Nat.min_eq_left many.le] at same
    exact percentiles_of_many scannedTimes (scanned.length_eq.symm ▸ many) scanned.symm same

/-- The two services rank alike exactly if the records of every source in the
window, and those of the source asked for, are such. -/
theorem rankings_agree_iff (collation : String → String → Bool) (store : MeasuredStore) (now : DateTime)
    (limit hours : Nat) (source : String) :
    RankingsAgree collation store now limit hours source ↔
      (∀ each, SameRanks limit (recentOf store.rows now hours each)) ∧ SamePercentiles (activeOf store.rows source) := by
  constructor
  · intro agree
    obtain ⟨ranks, percentiles⟩ := agree store.rows (List.Perm.refl _)
    exact ⟨(topAgrees_iff collation store (List.Perm.refl _) now limit hours).mp ranks,
      (percentilesAgree_iff store (List.Perm.refl _) source).mp percentiles⟩
  · rintro ⟨ranks, percentiles⟩ scan perm
    exact ⟨(topAgrees_iff collation store perm now limit hours).mpr ranks,
      (percentilesAgree_iff store perm source).mpr percentiles⟩

def Measured.anHourLater (record : Measured) : Measured where
  toRecord := { record.toRecord with timestamp := january 9 }
  numeric := record.numeric

def tiedReadings : MeasuredStore :=
  ⟨[measuredReading freshOne "sensor" (some 10),
    Measured.anHourLater (measuredReading freshTwo "sensor" (some 10))], [1, 2], by decide, by decide, by decide⟩

/-- The ingestor numbers them, and the query gives both the first rank. -/
theorem tied_ranks_differ :
    ¬ RankingsAgree (fun first second => first ≤ second) tiedReadings (january 10) 5 168 "sensor" := by
  intro agree
  have ranks := (agree tiedReadings.rows (List.Perm.refl _)).1
  have same := (topAgrees_iff _ tiedReadings (List.Perm.refl _) _ _ _).mp ranks "sensor"
  have all : recentOf tiedReadings.rows (january 10) 168 "sensor" = tiedReadings.rows := by
    rw [recentOf, List.filter_filter]
    exact List.filter_eq_self.mpr (by decide +kernel)
  rw [all] at same
  obtain ⟨alone, -⟩ := same _ List.mem_cons_self (by decide +kernel)
  have one := alone _ (List.mem_cons_of_mem _ List.mem_cons_self) (by decide +kernel)
  revert one
  decide

end DataPipeline.QueryApi
