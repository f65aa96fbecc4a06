import DataPipeline.Ingestor.ClientCursors
import DataPipeline.Ingestor.Listing
import DataPipeline.Library.Paging

/-! The listing by offsets and the listing by cursors of `ingestor/crud.py`, side by side. -/

set_option autoImplicit false

namespace DataPipeline.Ingestor.ListingsAgree

open Encoding Calendar Execution Paging Pagination ClientCursors

/-- A page of `get_records` at an offset, and what `list_records` answers for `has_more`. -/
def offsetFetch (store : Store) (limit : Nat) (source : Option String) (skip : Nat) : List Record × Bool :=
  let (records, total) := getRecords store skip limit source
  (records, skip + limit < total)

def CursorScrolls (depth limit : Nat) (source : Option String) (store : Store) (records : List Record) : Prop :=
  ∃ fetches final, (machine depth limit source).run (.initial store) (List.replicate fetches .fetch) = some final ∧
    final.status = .finished ∧ final.returned = records

variable {depth limit : Nat} {source : Option String} {store : Store}

theorem offsetFetch_listRecords (store : Store) (skip : Nat) (source : Option String) (positive : 1 ≤ limit)
    (bounded : limit ≤ maxPageSize) :
    listRecords store skip limit source =
      .ok ⟨(offsetFetch store limit source skip).1.map RecordResponse.modelValidate,
        (getRecords store skip limit source).2, skip, limit, (offsetFetch store limit source skip).2⟩ := by
  rw [listRecords_eq store skip limit source positive bounded]
  simp only [offsetFetch, ← Nat.cast_add, Nat.cast_lt]

/-! ## Offsets -/

def inOrder (store : Store) (source : Option String) : List Record :=
  (store.rows.filter fun record => record.deletedAt = none && sourceFilter source record).insertionSort
    fun first second => first.id ≤ second.id

theorem offsetFetch_eq (store : Store) (limit : Nat) (source : Option String) :
    offsetFetch store limit source = countedPage limit (inOrder store source) := by
  funext skip
  simp only [offsetFetch, getRecords, countedPage, window, inOrder, List.length_insertionSort]
  rfl

theorem mem_inOrder {record : Record} :
    record ∈ inOrder store source ↔ Visible (source.filter (· ≠ "")) store record := by
  rw [inOrder, List.mem_insertionSort, List.mem_filter, Bool.and_eq_true, decide_eq_true_eq, sourceFilter_named]
  exact Iff.rfl

theorem inOrder_nodup (store : Store) (source : Option String) : (inOrder store source).Nodup := by
  have distinct := (List.filter_sublist (p := fun record : Record =>
    record.deletedAt = none && sourceFilter source record)).nodup (store.ids_nodup.of_map Record.id)
  exact (List.perm_insertionSort _ _).nodup_iff.mpr distinct

/-! ## Cursors -/

theorem named (source : Option String) : source.filter (· ≠ "") ≠ some "" := by
  intro empty
  exact of_decide_eq_true (Option.filter_eq_some_iff.mp empty).2 rfl

/-- An empty source is no source. -/
theorem machine_named (depth limit : Nat) (source : Option String) :
    machine depth limit source = machine depth limit (source.filter (· ≠ "")) := by
  have same : sourceFilter source = sourceFilter (source.filter (· ≠ "")) := by
    funext record
    rw [Bool.eq_iff_iff, sourceFilter_named, sourceFilter_iff (named source)]
  simp only [machine, getRecordsCursorPaginated, same]

structure Alone (limit : Nat) (source : Option String) (store : Store) (fetches : Nat) (world : World) : Prop where
  unchanged : world.store = store
  progress : Progress (Visible source store) world
  visible : ∀ record ∈ world.returned, Visible source store record
  grows : world.status = .finished ∨ world.status = .fetching ∧ fetches ≤ world.returned.length

variable {world : World} {fetches : Nat}

theorem Alone.initial (limit : Nat) (source : Option String) (store : Store) :
    Alone limit source store 0 (.initial store) where
  unchanged := rfl
  progress := progress_initial store
  visible := fun _ member => absurd member List.not_mem_nil
  grows := .inr ⟨rfl, Nat.le_refl 0⟩

theorem Alone.fetch (alone : Alone limit source store fetches world) (positive : 1 ≤ limit)
    (named : source ≠ some "") (unfinished : world.status = .fetching) :
    ∃ next, (machine (depth + 1) limit source).step world .fetch = some next ∧
      Alone limit source store (fetches + 1) next := by
  obtain ⟨position, points, -⟩ := alone.progress.fetching unfinished
  obtain ⟨rows, page, returns, fetched⟩ := getRecordsCursorPaginated_fetched depth world.store positive named points
  have stepped : (machine (depth + 1) limit source).step world .fetch = some { world with
      cursor := page.nextCursor
      returned := world.returned ++ page.records
      status := if page.hasMore then .fetching else .finished } := by
    simp only [machine, unfinished, ↓reduceIte, returns]
  have sees : ∀ record, Visible source store record → Visible source world.store record := by
    rw [alone.unchanged]
    exact fun _ seen => seen
  obtain ⟨progress, -⟩ := alone.progress.fetch positive named unfinished sees stepped
  refine ⟨_, stepped, alone.unchanged, progress, ?_, ?_⟩
  · intro record member
    rcases List.mem_append.mp member with old | new
    · exact alone.visible record old
    · rw [fetched.records] at new
      rw [← alone.unchanged]
      exact ((fetched.mem_rows record).mp (Keyset.mem_of_mem_select new)).1
  · cases more : page.hasMore with
    | false => exact .inl rfl
    | true =>
      have full : page.records.length = limit := by
        rw [fetched.records, Keyset.length_select]
        exact Nat.min_eq_left (fetched.hasMore.mp more).le
      have before : fetches ≤ world.returned.length := by
        rcases alone.grows with done | ⟨-, grown⟩
        · rw [unfinished] at done
          cases done
        · exact grown
      refine .inr ⟨rfl, ?_⟩
      rw [List.length_append, full]
      omega

theorem Alone.length_le (alone : Alone limit source store fetches world) :
    world.returned.length ≤ store.rows.length := by
  have distinct : world.returned.Nodup := alone.progress.ids_nodup.of_map Record.id
  exact (List.subperm_of_subset distinct fun record member => (alone.visible record member).1).length_le

theorem Alone.finishes (depth : Nat) (alone : Alone limit source store fetches world) (positive : 1 ≤ limit)
    (named : source ≠ some "") :
    ∃ more total final,
      (machine (depth + 1) limit source).run world (List.replicate more .fetch) = some final ∧
        Alone limit source store total final ∧ final.status = .finished := by
  -- Each page takes one away from the records that are still to come.
  induction left : store.rows.length + 1 - fetches generalizing fetches world with
  | zero =>
    have short := alone.length_le
    rcases alone.grows with done | ⟨-, grown⟩
    · exact ⟨0, fetches, world, rfl, alone, done⟩
    · omega
  | succ left ih =>
    rcases alone.grows with done | ⟨unfinished, -⟩
    · exact ⟨0, fetches, world, rfl, alone, done⟩
    · obtain ⟨next, stepped, after⟩ := alone.fetch positive named unfinished
      obtain ⟨more, total, final, ran, ends⟩ := ih after (by omega)
      exact ⟨more + 1, total, final, Machine.run_cons.mpr ⟨next, stepped, ran⟩, ends⟩

theorem cursorScrolls (depth : Nat) (positive : 1 ≤ limit) (store : Store) (source : Option String) :
    ∃ records, CursorScrolls (depth + 1) limit source store records ∧ records.Nodup ∧
      ∀ record, record ∈ records ↔ Visible (source.filter (· ≠ "")) store record := by
  have start := Alone.initial limit (source.filter (· ≠ "")) store
  obtain ⟨more, total, final, ran, alone, done⟩ := start.finishes depth positive (named source)
  rw [← machine_named] at ran
  exact ⟨final.returned, ⟨more, final, ran, done, rfl⟩, alone.progress.ids_nodup.of_map Record.id,
    fun record => ⟨alone.visible record, alone.progress.finished done record⟩⟩

/-- Following the offsets while `has_more` is true and following the cursors from
None give the same records, each of them once. At every offset `has_more` is true
exactly if the next page has something on it, and the total is their number. -/
theorem listings_agree (depth limit : Nat) (positive : 1 ≤ limit) (store : Store) (source : Option String) :
    ∃ pages records, Scrolls (offsetFetch store limit source) limit 0 pages ∧
      CursorScrolls (depth + 1) limit source store records ∧
      (pages.flatMap Page.rows).Nodup ∧ records.Nodup ∧
      (∀ record, record ∈ pages.flatMap Page.rows ↔ record ∈ records) ∧
      (∀ record, record ∈ records ↔ Visible (source.filter (· ≠ "")) store record) ∧
      ∀ page ∈ pages,
        (page.more = true ↔ (getRecords store (page.offset + limit) limit source).1 ≠ []) ∧
        (getRecords store page.offset limit source).2 = (pages.flatMap Page.rows).length := by
  obtain ⟨records, scrolled, distinct, seen⟩ := cursorScrolls depth positive store source
  have offsets := scrolls_countedPages positive (inOrder store source)
  rw [← offsetFetch_eq] at offsets
  refine ⟨_, records, offsets, scrolled, ?_⟩
  rw [rows_countedPages positive]
  refine ⟨inOrder_nodup store source, distinct, fun record => mem_inOrder.trans (seen record).symm, seen, ?_⟩
  intro page member
  refine ⟨?_, ?_⟩
  · rw [counted_announced positive member]
    rfl
  · rw [inOrder, List.length_insertionSort]
    rfl

/-- Two records of one instant, which the cursors order by their ids. -/
def twoAtOnce : Store :=
  ⟨[Record.ofRequest reading freshTwo, Record.ofRequest { reading with source := "probe" } freshOne], [1, 2],
    by simp [freshOne, freshTwo], by decide, by simp [freshOne, freshTwo]⟩

theorem two_at_once_agree :
    ∃ pages records, Scrolls (offsetFetch twoAtOnce 1 none) 1 0 pages ∧ CursorScrolls 1 1 none twoAtOnce records ∧
      ∀ record, record ∈ pages.flatMap Page.rows ↔ record ∈ records := by
  obtain ⟨pages, records, offsets, cursors, -, -, same, -⟩ := listings_agree 0 1 (by decide) twoAtOnce none
  exact ⟨pages, records, offsets, cursors, same⟩

end DataPipeline.Ingestor.ListingsAgree
