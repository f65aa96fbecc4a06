import DataPipeline.Ingestor.Crud

/-! Overlapping calls of `update_record` for one record, each in a session of its own.

A call loads the row, and its UPDATE and commit are one step, since no other call
sees the change before the commit. The UPDATE sets the columns whose value is not
the one that was loaded, in the row as it is then.
-/

set_option autoImplicit false

namespace DataPipeline.Ingestor.UpdateRace

open Calendar Execution Encoding

/-! ## Columns -/

inductive Column where
  | source
  | timestamp
  | data
  | tags
  deriving DecidableEq

abbrev Column.Value : Column → Type
  | .source => String
  | .timestamp => DateTime
  | .data => List (Text × Json)
  | .tags => List String

def get (record : Record) : (column : Column) → column.Value
  | .source => record.source
  | .timestamp => record.timestamp
  | .data => record.rawData
  | .tags => record.tags

def provided (request : UpdateRecordRequest) : (column : Column) → Option column.Value
  | .source => request.source
  | .timestamp => request.timestamp
  | .data => request.data
  | .tags => request.tags

/-- What is stored is the value, or compares equal to it, which for JSON is less than being the same. -/
def Column.Holds : (column : Column) → (stored value : column.Value) → Prop
  | .data, stored, value => stored = value ∨ (Json.dict stored).pyEq (.dict value) = true
  | .source, stored, value | .timestamp, stored, value | .tags, stored, value => stored = value

/-! ## Steps of a call -/

/-- What the UPDATE makes of a row, when `old` was loaded. -/
def columns (request : UpdateRecordRequest) (old row : Record) (updatedAt : DateTime) : Record :=
  let new := request.apply old
  { row with
    source := if new.source = old.source then row.source else new.source
    timestamp := if new.timestamp = old.timestamp then row.timestamp else new.timestamp
    rawData := if new.rawData = old.rawData then row.rawData else new.rawData
    tags := if new.tags = old.tags then row.tags else new.tags
    updatedAt := some updatedAt }

/-- Flush and commit. None stands for an exception: the row is gone, or another row has its new key. -/
def commit (request : UpdateRecordRequest) (store : Store) (recordId : Int) (old : Record) (updatedAt : DateTime) :
    Option Store :=
  if request.apply old = old then some store
  else (store.find? recordId).bind fun row => store.replace? (columns request old row updatedAt)

inductive Phase where
  | idle
  | loaded (old : Record)
  | committed
  | returned (record : Option Record)
  | raised
  deriving DecidableEq

def Phase.Committed : Phase → Prop
  | .committed | .returned (some _) => True
  | .idle | .loaded _ | .returned none | .raised => False

inductive Act where
  | load
  | commit (updatedAt : DateTime)
  | refresh
  deriving DecidableEq

def advance (request : UpdateRecordRequest) (recordId : Int) (store : Store) : Act → Phase → Option (Store × Phase)
  | .load, .idle =>
    match store.find? recordId with
    | none => some (store, .returned none)
    | some old => some (store, .loaded old)
  | .commit updatedAt, .loaded old =>
    match commit request store recordId old updatedAt with
    | some store => some (store, .committed)
    | none => some (store, .raised)
  | .refresh, .committed =>
    match store.find? recordId with
    | some record => some (store, .returned (some record))
    | none => some (store, .raised)
  | _, _ => none

variable {Call : Type} [DecidableEq Call]

structure World (Call : Type) where
  store : Store
  calls : Call → Phase

def World.initial (store : Store) : World Call := ⟨store, fun _ => .idle⟩

structure Label (Call : Type) where
  call : Call
  act : Act

/-- Every call has a request body of its own. -/
def machine (bodies : Call → UpdateRecordRequest) (recordId : Int) : Machine (World Call) (Label Call) where
  step world label :=
    (advance (bodies label.call) recordId world.store label.act (world.calls label.call)).map fun (store, phase) =>
      ⟨store, Function.update world.calls label.call phase⟩

/-! ## What an UPDATE does to a column -/

variable {request : UpdateRecordRequest} {old row : Record} {updatedAt : DateTime} {column : Column}

theorem get_apply_of_omitted (omitted : provided request column = none) :
    get (request.apply old) column = get old column := by
  cases column <;> simp only [provided] at omitted <;> simp [get, UpdateRecordRequest.apply, omitted]

theorem holds_apply {value : column.Value} (given : provided request column = some value) :
    column.Holds (get (request.apply old) column) value := by
  cases column with
  | data =>
    simp only [provided] at given
    simp only [get, UpdateRecordRequest.apply, given, Column.Holds]
    split
    next equal => exact .inr equal
    next => exact .inl rfl
  | source | timestamp | tags =>
    simp only [provided] at given
    simp only [get, UpdateRecordRequest.apply, given, Column.Holds, Option.getD_some]

theorem assigned_of_same {Value : Type} {new loaded stored : Value} [Decidable (new = loaded)]
    (same : stored = loaded) : (if new = loaded then stored else new) = new := by
  split
  next unchanged => rw [same, unchanged]
  next => rfl

-- The two equations keep the order on `DateTime`, which decides the comparison, from being unfolded.

theorem get_timestamp (record : Record) : get record .timestamp = record.timestamp := rfl

theorem columns_timestamp : (columns request old row updatedAt).timestamp =
    if (request.apply old).timestamp = old.timestamp then row.timestamp else (request.apply old).timestamp := rfl

/-- In a column that is as it was loaded, the UPDATE leaves what the call has assigned. -/
theorem get_columns_of_loaded (same : get row column = get old column) :
    get (columns request old row updatedAt) column = get (request.apply old) column := by
  cases column with
  | source => exact assigned_of_same same
  | timestamp =>
    rw [get_timestamp, get_timestamp] at same ⊢
    rw [columns_timestamp]
    exact assigned_of_same same
  | data => exact assigned_of_same same
  | tags => exact assigned_of_same same

theorem get_columns_of_omitted (omitted : provided request column = none) :
    get (columns request old row updatedAt) column = get row column := by
  have unchanged : get (request.apply old) column = get old column := get_apply_of_omitted omitted
  cases column with
  | source => exact if_pos unchanged
  | timestamp =>
    rw [get_timestamp, get_timestamp] at unchanged ⊢
    rw [columns_timestamp]
    exact if_pos unchanged
  | data => exact if_pos unchanged
  | tags => exact if_pos unchanged

/-- The columns that no request provides; `updated_at` is not among them. -/
structure Kept (record row : Record) : Prop where
  id : row.id = record.id
  processed : row.processed = record.processed
  processedAt : row.processedAt = record.processedAt
  createdAt : row.createdAt = record.createdAt
  deletedAt : row.deletedAt = record.deletedAt

theorem Kept.columns {record : Record} (kept : Kept record row) : Kept record (columns request old row updatedAt) :=
  ⟨kept.id, kept.processed, kept.processedAt, kept.createdAt, kept.deletedAt⟩

/-! ## Merging -/

def Disjoint (bodies : Call → UpdateRecordRequest) : Prop :=
  ∀ first second column, first ≠ second → provided (bodies first) column = none ∨ provided (bodies second) column = none

omit [DecidableEq Call] in
theorem foreign {bodies : Call → UpdateRecordRequest} (disjoint : Disjoint bodies) {call other : Call}
    (different : other ≠ call) {column : Column} {value : column.Value}
    (given : provided (bodies other) column = some value) : provided (bodies call) column = none := by
  rcases disjoint other call column different with none | none
  · rw [none] at given
    cases given
  · exact none

/-- What is in the row between any two steps, where `record` was in it before the first. -/
structure Merging (bodies : Call → UpdateRecordRequest) (record row : Record) (calls : Call → Phase) : Prop where
  pending : ∀ call column value, provided (bodies call) column = some value → ¬ (calls call).Committed →
    get row column = get record column
  loaded : ∀ call old column value, provided (bodies call) column = some value → calls call = .loaded old →
    get old column = get record column
  committed : ∀ call column value, provided (bodies call) column = some value → (calls call).Committed →
    column.Holds (get row column) value
  omitted : ∀ column, (∀ call, provided (bodies call) column = none) → get row column = get record column
  kept : Kept record row

variable {bodies : Call → UpdateRecordRequest} {record : Record} {calls : Call → Phase} {call : Call} {phase : Phase}

omit [DecidableEq Call] in
theorem Merging.initial (bodies : Call → UpdateRecordRequest) (record : Record) :
    Merging bodies record record fun _ => .idle where
  pending := fun _ _ _ _ _ => rfl
  loaded := fun _ _ _ _ _ idle => by cases idle
  committed := fun _ _ _ _ done => absurd done not_false
  omitted := fun _ _ => rfl
  kept := ⟨rfl, rfl, rfl, rfl, rfl⟩

theorem Merging.move (merging : Merging bodies record row calls) (same : phase.Committed ↔ (calls call).Committed)
    (loads : ∀ old, phase = .loaded old → old = row) :
    Merging bodies record row (Function.update calls call phase) where
  pending := by
    intro other column value given unfinished
    apply merging.pending other column value given
    by_cases own : other = call
    · subst own
      rwa [Function.update_self, same] at unfinished
    · rwa [Function.update_of_ne own] at unfinished
  loaded := by
    intro other old column value given reading
    by_cases own : other = call
    · subst own
      rw [Function.update_self] at reading
      -- What has just been loaded is the row, and the call has not committed.
      rw [loads old reading]
      apply merging.pending other column value given
      rw [← same, reading]
      exact not_false
    · rw [Function.update_of_ne own] at reading
      exact merging.loaded other old column value given reading
  committed := by
    intro other column value given done
    apply merging.committed other column value given
    by_cases own : other = call
    · subst own
      rwa [Function.update_self, same] at done
    · rwa [Function.update_of_ne own] at done
  omitted := merging.omitted
  kept := merging.kept

/-- A commit that leaves alone what its body does not provide, and puts in place what it does. -/
theorem Merging.commit (merging : Merging bodies record row calls) (disjoint : Disjoint bodies) {written : Record}
    (leaves : ∀ column, provided (bodies call) column = none → get written column = get row column)
    (places : ∀ column value, provided (bodies call) column = some value → column.Holds (get written column) value)
    (kept : Kept record written) : Merging bodies record written (Function.update calls call .committed) where
  pending := by
    intro other column value given unfinished
    by_cases own : other = call
    · subst own
      rw [Function.update_self] at unfinished
      exact absurd trivial unfinished
    · rw [Function.update_of_ne own] at unfinished
      rw [leaves column (foreign disjoint own given)]
      exact merging.pending other column value given unfinished
  loaded := by
    intro other old column value given reading
    by_cases own : other = call
    · subst own
      rw [Function.update_self] at reading
      cases reading
    · rw [Function.update_of_ne own] at reading
      exact merging.loaded other old column value given reading
  committed := by
    intro other column value given done
    by_cases own : other = call
    · subst own
      exact places column value given
    · rw [Function.update_of_ne own] at done
      rw [leaves column (foreign disjoint own given)]
      exact merging.committed other column value given done
  omitted := fun column nobody => (leaves column (nobody call)).trans (merging.omitted column nobody)
  kept := kept

/-! ## A call on its own -/

theorem columns_self : columns request old old updatedAt = { request.apply old with updatedAt := some updatedAt } := by
  have assigned {α : Type} [DecidableEq α] (new old : α) : (if new = old then old else new) = new := by
    split
    next same => exact same.symm
    next => rfl
  simp only [columns, assigned]
  rfl

theorem update_alone (bodies : Call → UpdateRecordRequest) {recordId : Int} {before : World Call} {call : Call}
    {later : Store} {result : Option Record} (idle : before.calls call = .idle)
    (updated : updateRecord before.store recordId (bodies call) updatedAt = some (later, result)) :
    ∃ rest, (machine bodies recordId).run before (List.map (Label.mk call) (.load :: rest)) =
      some ⟨later, Function.update before.calls call (.returned result)⟩ := by
  unfold updateRecord at updated
  split at updated
  next missing =>
    cases updated
    exact ⟨[], by simp [Machine.run, machine, advance, idle, missing]⟩
  next old found =>
    obtain ⟨⟨_, record⟩, wrote, same⟩ := Option.map_eq_some_iff.mp updated
    cases same
    have commits : commit (bodies call) before.store recordId old updatedAt = some later ∧
        later.find? recordId = some record := by
      rcases writeBack_cases wrote with ⟨rfl, rfl, unchanged⟩ | ⟨changed, rfl, replacing⟩
      · exact ⟨if_pos unchanged, found⟩
      · rw [commit, if_neg changed, found, Option.bind_some, columns_self]
        obtain ⟨member, sameId⟩ := Table.find?_eq_some_iff.mp found
        refine ⟨replacing, ?_⟩
        rw [Table.find?_replace? replacing ⟨old, member, rfl⟩]
        exact if_pos sameId
    refine ⟨[.commit updatedAt, .refresh], ?_⟩
    simp [Machine.run, machine, advance, idle, found, commits.1, commits.2]

/-! ## Runs -/

/-- The row is there, with what the calls that have committed have provided. -/
def Merged (bodies : Call → UpdateRecordRequest) (recordId : Int) (record : Record) (world : World Call) : Prop :=
  ∃ row, world.store.find? recordId = some row ∧ Merging bodies record row world.calls

variable {recordId : Int} {before after : World Call} {label : Label Call} {store later : Store}

theorem commit_cases (committed : commit request store recordId old updatedAt = some later)
    (found : store.find? recordId = some row) :
    (later = store ∧ request.apply old = old) ∨ later.find? recordId = some (columns request old row updatedAt) := by
  unfold commit at committed
  split at committed
  next same =>
    cases committed
    exact .inl ⟨rfl, same⟩
  next =>
    rw [found, Option.bind_some] at committed
    obtain ⟨member, sameId⟩ := Table.find?_eq_some_iff.mp found
    refine .inr ?_
    rw [Table.find?_replace? committed ⟨row, member, rfl⟩]
    exact if_pos sameId

theorem Merged.step (merged : Merged bodies recordId record before) (disjoint : Disjoint bodies)
    (stepped : (machine bodies recordId).step before label = some after) : Merged bodies recordId record after := by
  obtain ⟨row, found, merging⟩ := merged
  obtain ⟨call, act⟩ := label
  obtain ⟨⟨store, phase⟩, advanced, rfl⟩ := Option.map_eq_some_iff.mp stepped
  simp only at advanced ⊢
  unfold advance at advanced
  split at advanced
  next idle =>
    rw [found] at advanced
    cases advanced
    refine ⟨row, found, merging.move ?_ ?_⟩
    · rw [idle]
      exact Iff.rfl
    · intro old loaded
      cases loaded
      rfl
  next updatedAt old reading =>
    split at advanced
    next later written =>
      cases advanced
      have unfinished : ¬ (before.calls call).Committed := by
        rw [reading]
        exact not_false
      rcases commit_cases written found with ⟨rfl, unchanged⟩ | writes
      -- Nothing has to be written, because every provided value is the one that was loaded.
      · refine ⟨row, found, merging.commit disjoint (fun _ _ => rfl) ?_ merging.kept⟩
        intro column value given
        rw [merging.pending call column value given unfinished, ← merging.loaded call old column value given reading]
        have assigned : column.Holds (get ((bodies call).apply old) column) value := holds_apply given
        rwa [unchanged] at assigned
      · refine ⟨_, writes, merging.commit disjoint (fun _ omitted => get_columns_of_omitted omitted) ?_
          merging.kept.columns⟩
        intro column value given
        rw [get_columns_of_loaded]
        · exact holds_apply given
        · rw [merging.pending call column value given unfinished, merging.loaded call old column value given reading]
    next =>
      cases advanced
      refine ⟨row, found, merging.move ?_ ?_⟩
      · rw [reading]
        exact Iff.rfl
      · intro _ loaded
        cases loaded
  next committed =>
    rw [found] at advanced
    cases advanced
    refine ⟨row, found, merging.move ?_ ?_⟩
    · rw [committed]
      exact Iff.rfl
    · intro _ loaded
      cases loaded
  next => cases advanced

/-- Once all calls have committed, in whatever order their steps were taken, the
row has what each body provides and is otherwise as it was, up to `updated_at`. -/
theorem disjoint_updates_merge (bodies : Call → UpdateRecordRequest) (disjoint : Disjoint bodies) (store : Store)
    (recordId : Int) (record : Record) (found : store.find? recordId = some record) (labels : List (Label Call))
    (final : World Call) (ran : (machine bodies recordId).run (.initial store) labels = some final)
    (done : ∀ call, (final.calls call).Committed) :
    ∃ row, final.store.find? recordId = some row ∧
      (∀ call column value, provided (bodies call) column = some value → column.Holds (get row column) value) ∧
      (∀ column, (∀ call, provided (bodies call) column = none) → get row column = get record column) ∧
      Kept record row := by
  have merged : Merged bodies recordId record final :=
    Machine.invariant_of_step (Merged bodies recordId record) ⟨record, found, .initial bodies record⟩
      (fun _ _ _ merged stepped => merged.step disjoint stepped) ran
  obtain ⟨row, present, merging⟩ := merged
  exact ⟨row, present, fun call column value given => merging.committed call column value given (done call),
    merging.omitted, merging.kept⟩

def oneRecord : Store := (Table.empty.insert? (Record.ofRequest reading freshOne)).getD Table.empty

def sourceAndTags : Bool → UpdateRecordRequest
  | false => ⟨some "probe", none, none, none⟩
  | true => ⟨none, none, none, some ["indoor"]⟩

def overlapping : List (Label Bool) :=
  [⟨false, .load⟩, ⟨true, .load⟩, ⟨false, .commit (january 10)⟩, ⟨true, .commit (january 11)⟩]

theorem source_and_tags_merge :
    ∃ final row, (machine sourceAndTags 1).run (.initial oneRecord) overlapping = some final ∧
      final.store.find? 1 = some row ∧ row.source = "probe" ∧ row.tags = ["indoor"] := by
  have ends : ((machine sourceAndTags 1).run (.initial oneRecord) overlapping).any fun final =>
      final.calls false = .committed ∧ final.calls true = .committed := rfl
  obtain ⟨final, ran, ends⟩ := (Option.any_eq_true _ _).mp ends
  have committed := of_decide_eq_true ends
  have disjoint : Disjoint sourceAndTags := by
    intro first second column different
    cases first <;> cases second <;> cases column <;> simp_all [sourceAndTags, provided]
  have done : ∀ call, (final.calls call).Committed := by
    rw [Bool.forall_bool, committed.1, committed.2]
    exact ⟨trivial, trivial⟩
  have found : oneRecord.find? 1 = some (Record.ofRequest reading freshOne) := rfl
  obtain ⟨row, present, holds, -⟩ :=
    disjoint_updates_merge sourceAndTags disjoint oneRecord 1 _ found overlapping final ran done
  exact ⟨final, row, ran, present, holds false .source "probe" rfl, holds true .tags ["indoor"] rfl⟩

end DataPipeline.Ingestor.UpdateRace
