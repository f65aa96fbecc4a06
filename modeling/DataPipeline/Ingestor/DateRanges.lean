import DataPipeline.Ingestor.Listing
import DataPipeline.Library.Ranking

/-! The records of a range of timestamps, whose end is left out. -/

set_option autoImplicit false

namespace DataPipeline.Ingestor.DateRanges

open Calendar

def Selects (start stop : DateTime) (source : Option String) (record : Record) : Bool :=
  record.deletedAt = none && start ≤ record.timestamp && record.timestamp < stop && sourceFilter source record

variable {store : Store} {start mid stop : DateTime} {source : Option String} {record : Record}

theorem getRecordsByDateRange_eq : getRecordsByDateRange store start stop source =
    Ranking.descending Record.position (store.rows.filter (Selects start stop source)) := rfl

theorem selects_iff : Selects start stop source record = true ↔
    record.Active ∧ start ≤ record.timestamp ∧ record.timestamp < stop ∧ sourceFilter source record = true := by
  simp only [Selects, Bool.and_eq_true, decide_eq_true_eq, Record.Active, and_assoc]

/-- The empty source filters nothing, like None. -/
theorem sourceFilter_matches : sourceFilter source record = true ↔
    ∀ wanted ∈ source, wanted ≠ "" → record.source = wanted := by
  unfold sourceFilter
  split
  next => simp
  next => simp
  next wanted named =>
    have nonempty : wanted ≠ "" := named
    simp [nonempty]

theorem distinct_positions (store : Store) (selects : Record → Bool) :
    ((store.rows.filter selects).map Record.position).Nodup := by
  apply List.Nodup.of_map fun position => (ofLex position).2
  rw [List.map_map]
  exact (List.filter_sublist.map Record.id).nodup store.ids_nodup

theorem filter_parts (lower : start ≤ mid) (upper : mid ≤ stop) (rows : List Record) :
    (rows.filter (Selects start stop source)).Perm
      (rows.filter (Selects mid stop source) ++ rows.filter (Selects start mid source)) := by
  have later : (rows.filter (Selects start stop source)).filter (fun record => mid ≤ record.timestamp) =
      rows.filter (Selects mid stop source) := by
    rw [List.filter_filter]
    apply List.filter_congr
    intro record _
    rw [Bool.eq_iff_iff, Bool.and_eq_true, decide_eq_true_eq, selects_iff, selects_iff]
    constructor
    · rintro ⟨reached, active, -, before, fits⟩
      exact ⟨active, reached, before, fits⟩
    · rintro ⟨active, reached, before, fits⟩
      exact ⟨reached, active, lower.trans reached, before, fits⟩
  have earlier : (rows.filter (Selects start stop source)).filter (fun record => !decide (mid ≤ record.timestamp)) =
      rows.filter (Selects start mid source) := by
    rw [List.filter_filter]
    apply List.filter_congr
    intro record _
    rw [Bool.eq_iff_iff, Bool.and_eq_true, Bool.not_eq_true', decide_eq_false_iff_not, not_le, selects_iff, selects_iff]
    constructor
    · rintro ⟨below, active, reached, -, fits⟩
      exact ⟨active, reached, below, fits⟩
    · rintro ⟨active, reached, below, fits⟩
      exact ⟨below, active, reached, below.trans_le upper, fits⟩
  rw [← later, ← earlier]
  exact (List.filter_append_perm _ _).symm

theorem position_lt {first second : Record} (earlier : first.timestamp < second.timestamp) :
    first.position < second.position := Prod.Lex.toLex_lt_toLex.mpr (.inl earlier)

/-- A range is the later part of it followed by the earlier part, wherever it is cut.
Its records come in strictly descending order, and are the active ones that match. -/
theorem date_ranges_tile (store : Store) (source : Option String) (start mid stop : DateTime) (lower : start ≤ mid)
    (upper : mid ≤ stop) :
    getRecordsByDateRange store start stop source =
      getRecordsByDateRange store mid stop source ++ getRecordsByDateRange store start mid source ∧
    ∀ start stop, (getRecordsByDateRange store start stop source).Pairwise
        (fun first second => second.position < first.position) ∧
      ∀ record, record ∈ getRecordsByDateRange store start stop source ↔ record ∈ store.rows ∧ record.Active ∧
        start ≤ record.timestamp ∧ record.timestamp < stop ∧
          ∀ wanted ∈ source, wanted ≠ "" → record.source = wanted := by
  refine ⟨?_, fun start stop => ⟨?_, fun record => ?_⟩⟩
  · apply Ranking.descending_append (filter_parts lower upper store.rows) (distinct_positions store _)
    intro high isHigh low isLow
    have reached := (selects_iff.mp (List.mem_filter.mp isHigh).2).2.1
    have below := (selects_iff.mp (List.mem_filter.mp isLow).2).2.2.1
    exact position_lt (below.trans_le reached)
  · exact Ranking.sorted_descending (distinct_positions store _)
  · rw [getRecordsByDateRange_eq, (Ranking.descending_perm _ _).mem_iff, List.mem_filter, selects_iff,
      sourceFilter_matches]

def oneReading : Store := (Table.empty.insert? (Record.ofRequest reading freshOne)).getD Table.empty

/-- A range that is cut at the timestamp of a record, which belongs to the later part. -/
theorem cut_at_reading :
    getRecordsByDateRange oneReading (january 7) (january 9) none =
      getRecordsByDateRange oneReading (january 8) (january 9) none ++
        getRecordsByDateRange oneReading (january 7) (january 8) none ∧
    Record.ofRequest reading freshOne ∈ getRecordsByDateRange oneReading (january 8) (january 9) none := by
  have order : january 7 ≤ january 8 ∧ january 8 < january 9 := by decide
  obtain ⟨tiles, each⟩ := date_ranges_tile oneReading none (january 7) (january 8) (january 9) order.1 order.2.le
  refine ⟨tiles, ((each (january 8) (january 9)).2 _).mpr ⟨?_, rfl, le_rfl, order.2, nofun⟩⟩
  exact List.mem_singleton_self _

end DataPipeline.Ingestor.DateRanges
