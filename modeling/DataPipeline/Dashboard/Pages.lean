import DataPipeline.Ingestor.Listing
import DataPipeline.Library.Paging

/-! The records explorer of `services/dashboard/routers/pages.py`, which scrolls
through the list endpoint of the ingestor.
-/

set_option autoImplicit false

namespace DataPipeline.Dashboard

open Ingestor Paging

def defaultPageSize : Nat := 50

/-- The query parameters of a request, without those that are left out. -/
structure Params where
  skip : Nat
  limit : Nat
  source : Option String
  processed : Option String
  deriving DecidableEq

def params (skip : Nat) (source : Option String) (processed : Bool) : Params where
  skip := skip
  limit := defaultPageSize
  source := if source = some "" then none else source
  processed := if processed then some "true" else none

/-- `GET /api/v1/records`. No parameter of `list_records` is called `processed`,
so that one is not looked at. -/
def getRecordsEndpoint (store : Store) (params : Params) : Except (List String) RecordListResponse :=
  listRecords store params.skip params.limit params.source

/-- `_fetch_records`: the records of a page, and whether there are more. -/
def fetchRecords (get : Params → Except (List String) RecordListResponse) (source : Option String)
    (processed : Bool) (skip : Nat) : List RecordResponse × Bool :=
  match get (params skip source processed) with
  | .ok body => (body.records, body.records.length == defaultPageSize)
  | .error _ => ([], false)

def Matches (source : Option String) (processed : Bool) (record : Record) : Prop :=
  record.Active ∧ (∀ wanted ∈ source, wanted ≠ "" → record.source = wanted) ∧
    (processed = true → record.processed = true)

instance (source : Option String) (processed : Bool) (record : Record) :
    Decidable (Matches source processed record) := by
  unfold Matches
  infer_instance

/-- Scrolling down shows every record that matches once, and a page announces
the next one exactly if there is something on it. -/
def InfiniteScrollComplete (store : Store) (source : Option String) (processed : Bool) : Prop :=
  ∃ pages, Scrolls (fetchRecords (getRecordsEndpoint store) source processed) defaultPageSize 0 pages ∧
    (pages.flatMap Page.rows).Perm
      ((store.rows.filter fun record => Matches source processed record).map RecordResponse.modelValidate) ∧
    ∀ page ∈ pages, page.more = true ↔
      (fetchRecords (getRecordsEndpoint store) source processed (page.offset + defaultPageSize)).1 ≠ []

variable {store : Store} {record : Record}

def listed (store : Store) (source : Option String) : List RecordResponse :=
  ((store.rows.filter fun record => Matches source false record).insertionSort
    fun first second => first.id ≤ second.id).map RecordResponse.modelValidate

theorem matches_false_iff (source : Option String) :
    Matches source false record ↔
      record.deletedAt = none ∧ sourceFilter (if source = some "" then none else source) record = true := by
  have named : (if source = some "" then none else source) ≠ some "" := by
    split
    next => exact (Option.some_ne_none _).symm
    next named => exact named
  rw [Pagination.sourceFilter_iff named, Matches, Record.Active]
  cases source with
  | none => simp
  | some wanted =>
    by_cases empty : wanted = ""
    · simp [empty]
    · simp [empty]

theorem fetchRecords_eq (store : Store) (source : Option String) (processed : Bool) :
    fetchRecords (getRecordsEndpoint store) source processed = fullPage defaultPageSize (listed store source) := by
  funext skip
  have same : (store.rows.filter fun record => record.deletedAt = none &&
      sourceFilter (if source = some "" then none else source) record) =
        store.rows.filter fun record => Matches source false record := by
    apply List.filter_congr
    intro record _
    rw [Bool.eq_iff_iff, Bool.and_eq_true, decide_eq_true_eq, decide_eq_true_eq]
    exact (matches_false_iff source).symm
  have answered := listRecords_eq store skip defaultPageSize (params skip source processed).source (by decide)
    (by decide)
  rw [fetchRecords, getRecordsEndpoint]
  simp only [params] at answered ⊢
  rw [answered]
  simp only [getRecords, same, fullPage, window, listed, List.map_take, List.map_drop]

theorem listed_perm (store : Store) (source : Option String) :
    (listed store source).Perm
      ((store.rows.filter fun record => Matches source false record).map RecordResponse.modelValidate) :=
  (List.perm_insertionSort _ _).map _

theorem length_listed (store : Store) (source : Option String) :
    (listed store source).length = (store.rows.filter fun record => Matches source false record).length := by
  rw [(listed_perm store source).length_eq, List.length_map]

/-- The filter on `processed` is honoured only where it would leave nothing out. -/
theorem listed_matches_iff (store : Store) (source : Option String) (processed : Bool) :
    (listed store source).Perm
        ((store.rows.filter fun record => Matches source processed record).map RecordResponse.modelValidate) ↔
      (processed = true → ∀ record ∈ store.rows, Matches source false record → record.processed = true) := by
  have narrowed : (store.rows.filter fun record => Matches source processed record) =
      (store.rows.filter fun record => Matches source false record).filter
        fun record => processed = true → record.processed = true := by
    rw [List.filter_filter]
    apply List.filter_congr
    intro record _
    rw [Bool.eq_iff_iff, Bool.and_eq_true]
    simp only [Matches, decide_eq_true_eq]
    grind
  constructor
  · intro shown asked record present fits
    have lengths := shown.length_eq
    rw [length_listed, List.length_map, narrowed, eq_comm, List.length_filter_eq_length_iff] at lengths
    exact of_decide_eq_true (lengths record (List.mem_filter.mpr ⟨present, decide_eq_true fits⟩)) asked
  · intro all
    have kept := List.filter_eq_self.mpr fun record member => by
      obtain ⟨present, fits⟩ := List.mem_filter.mp member
      exact decide_eq_true fun asked => all asked record present (of_decide_eq_true fits)
    rw [narrowed, kept]
    exact listed_perm store source

/-- The scroll through a source is complete if and only if everything that it
lists may be shown and the last record is not the last one of a full page. -/
theorem infinite_scroll_complete_iff (store : Store) (source : Option String) (processed : Bool) :
    InfiniteScrollComplete store source processed ↔
      (processed = true → ∀ record ∈ store.rows, Matches source false record → record.processed = true) ∧
        ((store.rows.filter fun record => Matches source false record) = [] ∨
          ¬ defaultPageSize ∣ (store.rows.filter fun record => Matches source false record).length) := by
  have positive : 0 < defaultPageSize := by decide
  have scrolled := scrolls_pages positive (listed store source)
  have exact := announced_iff positive (listed store source)
  have none_listed : listed store source = [] ↔
      (store.rows.filter fun record => Matches source false record) = [] := by
    rw [← List.length_eq_zero_iff, length_listed, List.length_eq_zero_iff]
  rw [length_listed, ne_eq, none_listed, not_and_or, not_not] at exact
  rw [← listed_matches_iff, ← exact, InfiniteScrollComplete, fetchRecords_eq]
  constructor
  · rintro ⟨pages, shown, once, announced⟩
    cases shown.unique scrolled
    rw [rows_pages positive] at once
    exact ⟨once, announced⟩
  · rintro ⟨once, announced⟩
    refine ⟨_, scrolled, ?_, announced⟩
    rw [rows_pages positive]
    exact once

def unprocessed : Store :=
  ⟨[Record.ofRequest reading freshOne], [1], by simp, by simp, by simp [freshOne]⟩

/-- The filter for processed records does not leave it out. -/
theorem unprocessed_shown_as_processed : ¬ InfiniteScrollComplete unprocessed none true := by
  rintro ⟨pages, shown, once, _⟩
  rw [fetchRecords_eq] at shown
  cases shown.unique (scrolls_pages (by decide) _)
  rw [rows_pages (by decide), listed_matches_iff] at once
  have processed := once rfl (Record.ofRequest reading freshOne) List.mem_cons_self (by decide)
  exact Bool.false_ne_true processed

end DataPipeline.Dashboard
