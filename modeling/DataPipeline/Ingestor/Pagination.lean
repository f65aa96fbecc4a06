import DataPipeline.Ingestor.Cursor
import DataPipeline.Ingestor.Upsert
import DataPipeline.Library.Keyset
import Mathlib.Data.Prod.Lex

/-! Cursor pagination of `ingestor/crud.py`, by one client among concurrent writers. -/

set_option autoImplicit false

namespace DataPipeline.Ingestor

open Encoding Calendar Execution

def Record.position (record : Record) : DateTime ×ₗ Int := toLex (record.timestamp, record.id)

inductive PageError where
  | cursor (error : CursorError)
  | statement
  | encoding
  deriving DecidableEq

/-- The condition on rows that a decoded cursor adds. A column is compared with no
None and no bool, and the driver refuses what is no integer of the column or carries an offset. -/
def cursorFilter : Option (Json × Option Stamp) → Except PageError (Record → Bool)
  | none => .ok fun _ => true
  | some (.int lastId, some ⟨lastTimestamp, none⟩) =>
    if FitsInteger lastId then
      .ok fun record => lastTimestamp < record.timestamp || (record.timestamp = lastTimestamp && lastId < record.id)
    else .error .statement
  | _ => .error .statement

/-- A source that is None or empty filters nothing. -/
def sourceFilter (source : Option String) (record : Record) : Bool :=
  match source with
  | none | some "" => true
  | some source => record.source = source

structure Page where
  records : List Record
  nextCursor : Option Text
  hasMore : Bool

def getRecordsCursorPaginated (depth : Nat) (store : Store) (cursor : Option Text) (limit : Nat)
    (source : Option String) : Except PageError Page := do
  let cursorData ← (decodeCursor depth cursor).mapError .cursor
  let beyond ← cursorFilter cursorData
  let rows := store.rows.filter fun record => record.deletedAt = none && beyond record && sourceFilter source record
  let recordsAll := Keyset.select Record.position (limit + 1) rows
  -- The extra row tells whether there are more and is not returned.
  let hasMore : Bool := limit < recordsAll.length
  let records := recordsAll.take limit
  match records.getLast? with
  | some lastRecord =>
    if hasMore then
      match encodeCursor lastRecord.id lastRecord.timestamp with
      | some nextCursor => return ⟨records, some nextCursor, hasMore⟩
      | none => throw .encoding
    else return ⟨records, none, hasMore⟩
  | none => return ⟨records, none, hasMore⟩

/-- Operations that add rows, archive them or delete them. -/
def Operation.AddsOrRemoves : Operation → Bool
  | .create _ _ | .createBatch _ | .upsert _ _ | .archive _ _ _ | .delete _ => true
  | .update _ _ _ | .process _ _ _ => false

namespace Pagination

/-! ## A client among writers -/

inductive Status where
  | fetching
  | finished
  | failed
  deriving DecidableEq

/-- The store, and the client with the cursor it sends next. -/
structure World where
  store : Store
  cursor : Option Text
  returned : List Record
  status : Status

def World.initial (store : Store) : World := ⟨store, none, [], .fetching⟩

inductive Label where
  | fetch
  | write (operation : Operation)

/-- The client fetches page after page until there are no more; between any two
fetches others write to the store. -/
def machine (depth limit : Nat) (source : Option String) : Machine World Label where
  step
    | world, .fetch =>
      if world.status = .fetching then
        match getRecordsCursorPaginated depth world.store world.cursor limit source with
        -- The client stops as soon as a page reports no more rows.
        | .ok page => some { world with
            cursor := page.nextCursor
            returned := world.returned ++ page.records
            status := if page.hasMore then .fetching else .finished }
        | .error _ => some { world with status := .failed }
      else none
    | world, .write operation =>
      if operation.AddsOrRemoves then
        (storeMachine.step world.store operation).map fun store => { world with store }
      else none

/-! ## One fetch -/

def Visible (source : Option String) (store : Store) (record : Record) : Prop :=
  record ∈ store.rows ∧ record.Active ∧ ∀ wanted ∈ source, record.source = wanted

inductive CursorAt : Option Text → Option (DateTime ×ₗ Int) → Prop where
  | start : CursorAt none none
  | after (last : Record) : CursorAt (encodeCursor last.id last.timestamp) (some last.position)

variable {depth limit : Nat} {source : Option String} {store after : Store} {cursor : Option Text}
  {position : Option (DateTime ×ₗ Int)} {record : Record}

theorem sourceFilter_iff (named : source ≠ some "") :
    sourceFilter source record = true ↔ ∀ wanted ∈ source, record.source = wanted := by
  unfold sourceFilter
  split
  next => simp
  next => exact absurd rfl named
  next => simp

theorem cursorFilter_of_cursorAt (depth : Nat) (points : CursorAt cursor position) :
    ∃ cursorData beyond, decodeCursor (depth + 1) cursor = .ok cursorData ∧ cursorFilter cursorData = .ok beyond ∧
      ∀ record : Record, beyond record = true ↔ Keyset.Beyond position record.position := by
  cases points with
  | start => exact ⟨none, _, rfl, rfl, fun record => iff_of_true rfl Keyset.beyond_none⟩
  | after last =>
    -- The client sends back what the server encoded, so the position survives the trip.
    obtain ⟨cursor, encoded, decoded⟩ := decodeCursor_encodeCursor last.id_fits.wide last.timestamp depth
    refine ⟨_, _, by rw [encoded, decoded], by rw [cursorFilter, if_pos last.id_fits], fun record => ?_⟩
    simp only [Keyset.beyond_some, Record.position, Prod.Lex.toLex_lt_toLex, Bool.or_eq_true, Bool.and_eq_true,
      decide_eq_true_eq, @eq_comm _ record.timestamp]

structure Fetched (limit : Nat) (source : Option String) (store : Store) (position : Option (DateTime ×ₗ Int))
    (rows : List Record) (page : Page) : Prop where
  ids_nodup : (rows.map Record.id).Nodup
  mem_rows : ∀ record, record ∈ rows ↔ Visible source store record ∧ Keyset.Beyond position record.position
  records : page.records = Keyset.select Record.position limit rows
  hasMore : page.hasMore = true ↔ limit < rows.length
  nextCursor : (page.hasMore = false ∧ page.nextCursor = none) ∨
    (page.hasMore = true ∧ page.nextCursor ≠ none ∧ ∃ last, page.records.getLast? = some last ∧
      page.nextCursor = encodeCursor last.id last.timestamp)

theorem Fetched.distinct {rows : List Record} {page : Page} (fetched : Fetched limit source store position rows page) :
    (rows.map Record.position).Nodup := by
  apply List.Nodup.of_map fun position => (ofLex position).2
  rw [List.map_map]
  exact fetched.ids_nodup

theorem getRecordsCursorPaginated_decoded {cursorData : Option (Json × Option Stamp)} {beyond : Record → Bool}
    (store : Store) (limit : Nat) (source : Option String) (decoded : decodeCursor depth cursor = .ok cursorData)
    (filtered : cursorFilter cursorData = .ok beyond) {rows : List Record}
    (queried : rows = store.rows.filter fun record =>
      record.deletedAt = none && beyond record && sourceFilter source record) :
    ∃ page, getRecordsCursorPaginated depth store cursor limit source = .ok page ∧
      page.records = Keyset.select Record.position limit rows ∧
      (page.hasMore = true ↔ limit < rows.length) ∧
      page.nextCursor = if limit < rows.length then
        page.records.getLast?.bind fun last => encodeCursor last.id last.timestamp else none := by
  subst queried
  let rows := store.rows.filter fun record => record.deletedAt = none && beyond record && sourceFilter source record
  -- One row more is asked for than the page holds, and tells whether there are more.
  have lookahead : limit < (Keyset.select Record.position (limit + 1) rows).length ↔ limit < rows.length := by
    rw [Keyset.length_select]
    omega
  have fetches : getRecordsCursorPaginated depth store cursor limit source =
      let page := fun nextCursor =>
        Page.mk (Keyset.select Record.position limit rows) nextCursor (decide (limit < rows.length))
      match (Keyset.select Record.position limit rows).getLast? with
      | some last =>
        if limit < rows.length then
          match encodeCursor last.id last.timestamp with
          | some nextCursor => .ok (page (some nextCursor))
          | none => .error .encoding
        else .ok (page none)
      | none => .ok (page none) := by
    simp only [getRecordsCursorPaginated, decoded, filtered, Except.mapError, bind, Except.bind, pure, Except.pure,
      Keyset.take_select, lookahead, decide_eq_true_eq, rows]
    rfl
  rw [fetches]
  cases ends : (Keyset.select Record.position limit rows).getLast? with
  | none => exact ⟨_, rfl, rfl, decide_eq_true_iff, by simp only [ends, Option.bind_none, ite_self]⟩
  | some last =>
    by_cases more : limit < rows.length
    · simp only [if_pos more, encodeCursor_eq]
      refine ⟨_, rfl, rfl, decide_eq_true_iff, ?_⟩
      rw [if_pos more, ends, Option.bind_some]
    · simp only [if_neg more]
      refine ⟨_, rfl, rfl, decide_eq_true_iff, ?_⟩
      rw [if_neg more]

theorem getRecordsCursorPaginated_fetched (depth : Nat) (store : Store) (positive : 1 ≤ limit)
    (named : source ≠ some "") (points : CursorAt cursor position) :
    ∃ rows page, getRecordsCursorPaginated (depth + 1) store cursor limit source = .ok page ∧
      Fetched limit source store position rows page := by
  obtain ⟨cursorData, beyond, decoded, filtered, after⟩ := cursorFilter_of_cursorAt depth points
  obtain ⟨page, fetched, records, hasMore, nextCursor⟩ :=
    getRecordsCursorPaginated_decoded store limit source decoded filtered rfl
  let rows := store.rows.filter fun record =>
    record.deletedAt = none && beyond record && sourceFilter source record
  have distinct : (rows.map Record.id).Nodup := (List.filter_sublist.map Record.id).nodup store.ids_nodup
  have members : ∀ record, record ∈ rows ↔
      Visible source store record ∧ Keyset.Beyond position record.position := by
    intro record
    simp only [rows, List.mem_filter, Bool.and_eq_true, decide_eq_true_eq, after, sourceFilter_iff named, Visible,
      Record.Active]
    tauto
  refine ⟨rows, page, fetched, distinct, members, records, hasMore, ?_⟩
  by_cases more : limit < rows.length
  -- The page is full, and as the limit is positive it has a last row.
  · obtain ⟨last, ends⟩ : ∃ last, page.records.getLast? = some last := by
      apply Option.isSome_iff_exists.mp
      rw [List.getLast?_isSome, ← List.length_pos_iff, records, Keyset.length_select]
      exact Nat.lt_min.mpr ⟨positive, Nat.zero_lt_of_lt more⟩
    rw [if_pos more, ends, Option.bind_some] at nextCursor
    refine .inr ⟨hasMore.mpr more, ?_, last, ends, nextCursor⟩
    rw [nextCursor, encodeCursor_eq]
    exact Option.some_ne_none _
  · rw [if_neg more] at nextCursor
    exact .inl ⟨eq_false_of_ne_true fun shown => more (hasMore.mp shown), nextCursor⟩

/-! ## What writers change -/

def Evolves (store after : Store) : Prop :=
  (∀ id ∈ store.issued, id ∈ after.issued) ∧
    ∀ row ∈ after.rows, row.id ∈ store.issued →
      ∃ old ∈ store.rows, old.id = row.id ∧ old.timestamp = row.timestamp

@[refl] theorem Evolves.refl (store : Store) : Evolves store store :=
  ⟨fun _ member => member, fun row member _ => ⟨row, member, rfl, rfl⟩⟩

theorem Evolves.trans {middle : Store} (first : Evolves store middle) (second : Evolves middle after) :
    Evolves store after := by
  refine ⟨fun id member => second.1 id (first.1 id member), fun row member issued => ?_⟩
  obtain ⟨between, betweenIn, sameId, sameTime⟩ := second.2 row member (first.1 row.id issued)
  obtain ⟨old, oldIn, oldId, oldTime⟩ := first.2 between betweenIn (sameId ▸ issued)
  exact ⟨old, oldIn, oldId.trans sameId, oldTime.trans sameTime⟩

theorem evolves_createRecord {request : RecordRequest} {fresh : Fresh}
    (created : createRecord store request fresh = some (after, record)) : Evolves store after := by
  obtain ⟨rfl, inserted⟩ := createRecord_eq_some created
  obtain ⟨new, issued⟩ := Table.insert?_fresh inserted
  refine ⟨fun id member => by rw [issued]; exact List.mem_cons_of_mem _ member, fun row member known => ?_⟩
  rcases (Table.mem_insert? inserted).mp member with kept | rfl
  · exact ⟨row, kept, rfl, rfl⟩
  · exact absurd known new

theorem evolves_createRecordsBatch {rows : List (RecordRequest × Fresh)} {records : List Record}
    (created : createRecordsBatch store rows = some (after, records)) : Evolves store after := by
  induction rows generalizing store records with
  | nil => cases created; exact .refl _
  | cons row rest ih =>
    obtain ⟨request, fresh⟩ := row
    simp only [createRecordsBatch, Option.bind_eq_bind, Option.bind_eq_some_iff, Option.pure_def,
      Option.some.injEq, Prod.exists, Prod.mk.injEq] at created
    obtain ⟨middle, record, first, last, others, second, rfl, -⟩ := created
    exact (evolves_createRecord first).trans (ih second)

theorem evolves_softDeleteRecord {recordId : Int} {now updatedAt : DateTime} {result : Option Record}
    (archived : softDeleteRecord store recordId now updatedAt = some (after, result)) : Evolves store after := by
  rcases softDeleteRecord_cases archived with ⟨rfl, -⟩ | ⟨old, written, found, -, wrote, -⟩
  · exact .refl _
  · rcases writeBack_cases wrote with ⟨rfl, -, -⟩ | ⟨-, rfl, replacing⟩
    · exact .refl _
    · have member := (Table.find?_eq_some_iff.mp found).1
      refine ⟨fun id known => by rwa [(Table.replace?_rows replacing).2], fun row rowIn _ => ?_⟩
      rcases (Table.mem_replace? replacing ⟨old, member, rfl⟩).mp rowIn with rfl | ⟨kept, -⟩
      · exact ⟨old, member, rfl, rfl⟩
      · exact ⟨row, kept, rfl, rfl⟩

theorem evolves_deleteRecord (recordId : Int) : Evolves store (deleteRecord store recordId).1 := by
  unfold deleteRecord
  split
  next => exact .refl store
  next => exact ⟨fun _ known => known, fun row member _ => ⟨row, (Table.mem_erase.mp member).1, rfl, rfl⟩⟩

theorem evolves_operation {operation : Operation} (adds : operation.AddsOrRemoves = true)
    (stepped : storeMachine.step store operation = some after) : Evolves store after := by
  simp only [storeMachine, Option.ite_none_right_eq_some, Option.some.injEq] at stepped
  obtain ⟨-, rfl⟩ := stepped
  cases ran : operation.run store with
  | none => exact .refl store
  | some next =>
    rw [Option.getD_some]
    cases operation with
    | create request fresh =>
      obtain ⟨⟨next, record⟩, created, rfl⟩ := Option.map_eq_some_iff.mp ran
      exact evolves_createRecord created
    | createBatch rows =>
      obtain ⟨⟨next, records⟩, created, rfl⟩ := Option.map_eq_some_iff.mp ran
      exact evolves_createRecordsBatch created
    | upsert request fresh =>
      cases ran
      rcases upsertRecord_cases store request fresh with ⟨_, _, created, same⟩ | same | same
      · rw [same]
        exact evolves_createRecord created
      -- Nothing has been written.
      · rw [same]
      · rw [same]
    | archive recordId now updatedAt =>
      obtain ⟨⟨next, result⟩, archived, rfl⟩ := Option.map_eq_some_iff.mp ran
      exact evolves_softDeleteRecord archived
    | delete recordId => cases ran; exact evolves_deleteRecord recordId
    | update recordId request updatedAt => cases adds
    | process recordId now updatedAt => cases adds

/-! ## The traversal -/

structure FetchCorrect (limit : Nat) (source : Option String) (before after : World) (page : Page) : Prop where
  returned : after.returned = before.returned ++ page.records
  short : page.records.length ≤ limit
  visible : ∀ record ∈ page.records, Visible source before.store record
  hasMore_iff_nextCursor : page.hasMore = true ↔ page.nextCursor ≠ none
  hasMore_iff_more : page.hasMore = true ↔
    ∃ record, Visible source before.store record ∧ ∀ read ∈ after.returned, read.position < record.position

/-- What holds at any time of the traversal, where every fetch sees the steady records. -/
structure Progress (steady : Record → Prop) (world : World) : Prop where
  fetching : world.status = .fetching → ∃ position, CursorAt world.cursor position ∧
    Keyset.Traversal Record.position steady position world.returned
  increasing : Keyset.Increasing Record.position world.returned
  finished : world.status = .finished → ∀ record, steady record → record ∈ world.returned
  known : ∀ read ∈ world.returned, read.id ∈ world.store.issued ∧
    ∀ row ∈ world.store.rows, row.id = read.id → row.timestamp = read.timestamp
  ids_nodup : (world.returned.map Record.id).Nodup

variable {steady : Record → Prop} {before world : World}

theorem progress_initial (store : Store) : Progress steady (.initial store) where
  fetching := fun _ => ⟨none, .start, .start⟩
  increasing := List.Pairwise.nil
  finished := fun done => by cases done
  known := fun _ member => absurd member List.not_mem_nil
  ids_nodup := List.nodup_nil

theorem Progress.write (progress : Progress steady before) (evolves : Evolves before.store store) :
    Progress steady { before with store } where
  fetching := progress.fetching
  increasing := progress.increasing
  finished := progress.finished
  known := by
    intro read member
    obtain ⟨issued, same⟩ := progress.known read member
    refine ⟨evolves.1 read.id issued, fun row rowIn sameId => ?_⟩
    obtain ⟨old, oldIn, oldId, oldTime⟩ := evolves.2 row rowIn (sameId ▸ issued)
    rw [← oldTime, same old oldIn (oldId.trans sameId)]
  ids_nodup := progress.ids_nodup

theorem Progress.fresh_ids (progress : Progress steady before)
    (traversal : Keyset.Traversal Record.position steady position before.returned) {rows : List Record} {page : Page}
    (fetched : Fetched limit source before.store position rows page) :
    ((before.returned ++ page.records).map Record.id).Nodup := by
  rw [List.map_append, List.nodup_append]
  refine ⟨progress.ids_nodup, ?_, ?_⟩
  · rw [fetched.records]
    exact Keyset.nodup_map_select fetched.ids_nodup
  · intro id old id' new same
    obtain ⟨read, readIn, rfl⟩ := List.mem_map.mp old
    obtain ⟨record, recordIn, rfl⟩ := List.mem_map.mp new
    rw [fetched.records] at recordIn
    obtain ⟨⟨stored, -⟩, beyond⟩ := (fetched.mem_rows record).mp (Keyset.mem_of_mem_select recordIn)
    -- A row keeps its timestamp, so its position would be the one read before.
    have sameTime := (progress.known read readIn).2 record stored same.symm
    have later := traversal.beyond_iff.mp beyond read readIn
    rw [Record.position, Record.position, sameTime, same] at later
    exact lt_irrefl _ later

theorem Progress.fetch (progress : Progress steady before) (positive : 1 ≤ limit) (named : source ≠ some "")
    (unfinished : before.status = .fetching) (sees : ∀ record, steady record → Visible source before.store record)
    (stepped : (machine (depth + 1) limit source).step before .fetch = some world) :
    Progress steady world ∧ ∃ page,
      getRecordsCursorPaginated (depth + 1) before.store before.cursor limit source = .ok page ∧
      FetchCorrect limit source before world page := by
  obtain ⟨position, points, traversal⟩ := progress.fetching unfinished
  obtain ⟨rows, page, returns, fetched⟩ :=
    getRecordsCursorPaginated_fetched depth before.store positive named points
  have beyond : ∀ record ∈ rows, Keyset.Beyond position record.position :=
    fun record member => ((fetched.mem_rows record).mp member).2
  have visible : ∀ record, steady record → Keyset.Beyond position record.position → record ∈ rows :=
    fun record always pending => (fetched.mem_rows record).mpr ⟨sees record always, pending⟩
  have sorted : Keyset.Increasing Record.position (before.returned ++ page.records) := by
    rw [fetched.records]
    exact traversal.increasing_append fetched.distinct beyond
  simp only [machine, unfinished, ↓reduceIte, returns, Option.some.injEq] at stepped
  subst stepped
  refine ⟨⟨?_, sorted, ?_, ?_, progress.fresh_ids traversal fetched⟩, page, returns, ⟨rfl, ?_, ?_, ?_, ?_⟩⟩
  case refine_1 =>
    intro unfinished
    -- The traversal goes on only with a cursor, which points at the last row returned.
    rcases fetched.nextCursor with ⟨noMore, -⟩ | ⟨-, -, last, ends, next⟩
    · rw [noMore] at unfinished
      cases unfinished
    · refine ⟨some last.position, ?_, ?_⟩
      · rw [next]
        exact .after last
      · rw [fetched.records] at ends ⊢
        exact traversal.next fetched.distinct beyond visible ends
  case refine_2 =>
    intro done
    -- It is over only when the last page was short.
    have noMore : ¬ page.hasMore = true := by
      intro more
      rw [more] at done
      cases done
    rw [fetched.records]
    exact traversal.finish visible (Nat.not_lt.mp fun more => noMore (fetched.hasMore.mpr more))
  case refine_3 =>
    intro read member
    rcases List.mem_append.mp member with old | new
    · exact progress.known read old
    · rw [fetched.records] at new
      have stored := ((fetched.mem_rows read).mp (Keyset.mem_of_mem_select new)).1.1
      refine ⟨before.store.ids_issued read stored, fun row rowIn same => ?_⟩
      rw [Table.eq_of_id rowIn stored same]
  case refine_4 =>
    rw [fetched.records, Keyset.length_select]
    exact Nat.min_le_left limit rows.length
  case refine_5 =>
    intro record member
    rw [fetched.records] at member
    exact ((fetched.mem_rows record).mp (Keyset.mem_of_mem_select member)).1
  case refine_6 =>
    rcases fetched.nextCursor with ⟨noMore, none⟩ | ⟨more, some, -⟩
    · simp only [noMore, none, Bool.false_eq_true, ne_eq, not_true]
    · simp only [more, some, ne_eq, not_false_iff]
  case refine_7 =>
    refine fetched.hasMore.trans ((Keyset.lt_length_iff fetched.distinct).trans ?_)
    simp only [fetched.mem_rows, traversal.beyond_iff, fetched.records, List.forall_mem_append, and_assoc]

theorem fetching_of_step (stepped : (machine depth limit source).step before .fetch = some world) :
    before.status = .fetching := by
  simp only [machine, Option.ite_none_right_eq_some] at stepped
  exact stepped.1

theorem Progress.step {label : Label} (progress : Progress steady before) (positive : 1 ≤ limit)
    (named : source ≠ some "")
    (sees : label = .fetch → ∀ record, steady record → Visible source before.store record)
    (stepped : (machine (depth + 1) limit source).step before label = some world) : Progress steady world := by
  cases label with
  | fetch => exact (progress.fetch positive named (fetching_of_step stepped) (sees rfl) stepped).1
  | write operation =>
    simp only [machine, Option.ite_none_right_eq_some, Option.map_eq_some_iff] at stepped
    obtain ⟨adds, store, wrote, rfl⟩ := stepped
    exact progress.write (evolves_operation adds wrote)

theorem progress_run {labels : List Label} (positive : 1 ≤ limit) (named : source ≠ some "")
    (sees : (machine (depth + 1) limit source).Every (.initial store) labels fun _ before label _ =>
      label = .fetch → ∀ record, steady record → Visible source before.store record)
    (ran : (machine (depth + 1) limit source).run (.initial store) labels = some world) :
    Progress steady world :=
  Machine.invariant (Progress steady) (progress_initial store) sees
    (fun _ _ _ _ progress sees stepped => progress.step positive named sees stepped) ran

/-- One client fetches the pages of a source, while others add records, archive
them and delete them. Each fetch is correct; what has been returned is in
increasing order, and no record is in it twice. Once there are no more pages, a
record that all of the fetches could see has been returned exactly once. -/
theorem pages_correct (depth limit : Nat) (source : Option String) (positive : 1 ≤ limit) (named : source ≠ some "")
    (store : Store) (labels : List Label) (final : World)
    (ran : (machine (depth + 1) limit source).run (.initial store) labels = some final) :
    ((machine (depth + 1) limit source).Every (.initial store) labels fun _ before label after =>
      label = .fetch → ∃ page,
        getRecordsCursorPaginated (depth + 1) before.store before.cursor limit source = .ok page ∧
        FetchCorrect limit source before after page) ∧
    (final.returned.Pairwise fun first second => first.position < second.position) ∧
    (final.returned.map Record.id).Nodup ∧
    ∀ record, final.status = .finished →
      ((machine (depth + 1) limit source).Every (.initial store) labels fun _ before label _ =>
        label = .fetch → Visible source before.store record) →
      final.returned.count record = 1 := by
  -- What concerns no particular record needs no record to be seen by all fetches.
  have sound : ∀ earlier before,
      (machine (depth + 1) limit source).run (.initial store) earlier = some before →
      Progress (fun _ => False) before :=
    fun earlier before ran => progress_run positive named (fun _ _ _ _ _ _ _ _ _ _ never => never.elim) ran
  refine ⟨?_, (sound labels final ran).increasing, (sound labels final ran).ids_nodup, fun record done sees => ?_⟩
  · rintro earlier label later before after - ran stepped rfl
    exact ((sound earlier before ran).fetch positive named (fetching_of_step stepped) (fun _ never => never.elim)
      stepped).2
  -- The record itself is the only one that all fetches must see.
  · have progress : Progress (fun steady => steady = record) final := by
      refine progress_run positive named (sees.mono ?_) ran
      rintro _ _ _ _ - - seen fetches other rfl
      exact seen fetches
    have distinct : final.returned.Nodup := progress.ids_nodup.of_map Record.id
    exact List.count_eq_one_of_mem distinct (progress.finished done record rfl)

/-- The record on the first page is archived before the second page is fetched. -/
def twoPages : List Label :=
  [.write (.create reading freshTwo),
    .write (.create { reading with timestamp := january 7 } freshOne), .fetch,
    .write (.archive 1 (january 10) (january 10)), .fetch]

theorem two_pages_read :
    ∃ final, (machine 2 1 (some "sensor")).run (.initial Table.empty) twoPages = some final ∧
      final.status = .finished ∧ final.returned.map Record.id = [1, 2] ∧
      final.returned.Pairwise fun first second => first.position < second.position := by
  have ends : ((machine 2 1 (some "sensor")).run (.initial Table.empty) twoPages).any fun final =>
      final.status = .finished ∧ final.returned.map Record.id = [1, 2] := by decide +kernel
  obtain ⟨final, ran, ends⟩ := (Option.any_eq_true _ _).mp ends
  obtain ⟨done, ids⟩ := of_decide_eq_true ends
  exact ⟨final, ran, done, ids,
    (pages_correct 1 1 (some "sensor") (by decide) (by decide) Table.empty twoPages final ran).2.1⟩

end Pagination

end DataPipeline.Ingestor
