import DataPipeline.Ingestor.CacheRace

/-! Overlapping calls of one operation that loads a record, changes it and writes it back.

Every call has a session of its own. Its UPDATE and the commit are one step,
since no other call sees the change before the commit. The call decides by the
row that it has loaded, and the UPDATE sets columns of the row as it is then.
-/

set_option autoImplicit false

namespace DataPipeline.Ingestor.RecordRace

open Calendar Execution

/-- What an operation does with the row that it has loaded, with a reading of
`_utcnow`, and what the UPDATE of the changed columns makes of a row. -/
structure Change where
  proceeds : Record → Bool
  modified : Record → DateTime → Record
  columns : Record → Record → DateTime → DateTime → Record
  columns_id : ∀ old row now updatedAt, (columns old row now updatedAt).id = row.id
  columns_key : ∀ old row now updatedAt, (columns old row now updatedAt).key = row.key
  columns_self : ∀ old now updatedAt,
    columns old old now updatedAt = { modified old now with updatedAt := some updatedAt }

namespace Change

def markProcessed : Change where
  proceeds _ := true
  modified old now := { old with processed := true, processedAt := old.processedAt.or (some now) }
  columns := CacheRace.markColumns
  columns_id _ _ _ _ := rfl
  columns_key _ _ _ _ := rfl
  columns_self _ _ _ := CacheRace.markColumns_self

/-- `soft_delete_record` -/
def softDelete : Change where
  proceeds old := decide (old.deletedAt = none)
  modified old now := { old with deletedAt := some now }
  columns _ row now updatedAt := { row with deletedAt := some now, updatedAt := some updatedAt }
  columns_id _ _ _ _ := rfl
  columns_key _ _ _ _ := rfl
  columns_self _ _ _ := rfl

/-- Flush and commit. None stands for an exception, because the row is gone. -/
def commit (change : Change) (store : Store) (recordId : Int) (old : Record) (now updatedAt : DateTime) :
    Option Store :=
  if change.modified old now = old then some store
  else (store.find? recordId).bind fun row => store.replace? (change.columns old row now updatedAt)

/-- The operation while no other call takes a step. -/
def operation (change : Change) (store : Store) (recordId : Int) (now updatedAt : DateTime) :
    Option (Store × Option Record) :=
  match store.find? recordId with
  | none => some (store, none)
  | some old =>
    if change.proceeds old then
      (writeBack store old (change.modified old now) updatedAt).map fun (store, record) => (store, some record)
    else some (store, none)

theorem operation_markProcessed : markProcessed.operation = Ingestor.markProcessed := rfl

theorem operation_softDelete : softDelete.operation = softDeleteRecord := by
  funext store recordId now updatedAt
  unfold operation softDeleteRecord
  cases store.find? recordId with
  | none => rfl
  | some old => simp only [softDelete, decide_eq_true_eq]

end Change

inductive Phase where
  | idle
  | loaded (old : Record) (now updatedAt : DateTime)
  | committed
  | returned (record : Option Record)
  | raised
  deriving DecidableEq

inductive Act where
  | load (now updatedAt : DateTime)
  | commit
  | refresh

structure World where
  store : Store
  calls : Nat → Phase

def World.initial (store : Store) : World := ⟨store, fun _ => .idle⟩

def advance (change : Change) (recordId : Int) (store : Store) : Act → Phase → Option (Store × Phase)
  | .load now updatedAt, .idle =>
    match store.find? recordId with
    | none => some (store, .returned none)
    | some old => some (store, if change.proceeds old then .loaded old now updatedAt else .returned none)
  | .commit, .loaded old now updatedAt =>
    match change.commit store recordId old now updatedAt with
    | some store => some (store, .committed)
    | none => some (store, .raised)
  | .refresh, .committed =>
    match store.find? recordId with
    | some record => some (store, .returned (some record))
    | none => some (store, .raised)
  | _, _ => none

structure Label where
  call : Nat
  act : Act

def World.set (world : World) (call : Nat) (store : Store) (phase : Phase) : World :=
  ⟨store, Function.update world.calls call phase⟩

def machine (change : Change) (recordId : Int) : Machine World Label where
  step world label := (advance change recordId world.store label.act (world.calls label.call)).map
    fun (store, phase) => world.set label.call store phase

variable {change : Change} {recordId : Int} {before after : World} {label : Label} {store later : Store}
  {old row : Record} {now updatedAt : DateTime} {call : Nat}

theorem World.set_self (world : World) (store : Store) (phase : Phase) :
    (world.set call store phase).calls call = phase := Function.update_self ..

theorem World.set_other (world : World) (store : Store) (phase : Phase) {other : Nat} (different : other ≠ call) :
    (world.set call store phase).calls other = world.calls other := Function.update_of_ne different ..

/-! ## What a step does -/

theorem commit_eq_none_iff : change.commit store recordId old now updatedAt = none ↔
    change.modified old now ≠ old ∧ store.find? recordId = none := by
  unfold Change.commit
  split
  next same => simp only [reduceCtorEq, same, ne_eq, not_true, false_and]
  next different =>
    rw [Option.bind_eq_none_iff]
    constructor
    · intro raises
      refine ⟨different, ?_⟩
      by_contra present
      obtain ⟨row, found⟩ := Option.ne_none_iff_exists'.mp present
      exact Table.replace?_ne_none (Table.find?_eq_some_iff.mp found).1 (change.columns_id _ _ _ _)
        (change.columns_key _ _ _ _) (raises row found)
    · rintro ⟨-, missing⟩ row found
      cases missing.symm.trans found

theorem commit_outcomes (committed : change.commit store recordId old now updatedAt = some later) :
    (later = store ∧ change.modified old now = old) ∨
      (change.modified old now ≠ old ∧ ∃ row, store.find? recordId = some row ∧
        later.find? recordId = some (change.columns old row now updatedAt)) := by
  unfold Change.commit at committed
  split at committed
  next same => cases committed; exact .inl ⟨rfl, same⟩
  next different =>
    obtain ⟨row, found, replacing⟩ := Option.bind_eq_some_iff.mp committed
    obtain ⟨member, rfl⟩ := Table.find?_eq_some_iff.mp found
    refine .inr ⟨different, row, found, ?_⟩
    have sameId := change.columns_id old row now updatedAt
    rw [Table.find?_replace? replacing ⟨row, member, sameId.symm⟩, if_pos sameId]

inductive Transition (change : Change) (recordId : Int) (before : World) : Label → World → Prop where
  | refused (call : Nat) (now updatedAt : DateTime) (idle : before.calls call = .idle)
      (unfit : ∀ row, before.store.find? recordId = some row → change.proceeds row = false) :
      Transition change recordId before ⟨call, .load now updatedAt⟩ (before.set call before.store (.returned none))
  | loaded (call : Nat) (now updatedAt : DateTime) (old : Record) (idle : before.calls call = .idle)
      (found : before.store.find? recordId = some old) (proceeds : change.proceeds old = true) :
      Transition change recordId before ⟨call, .load now updatedAt⟩
        (before.set call before.store (.loaded old now updatedAt))
  | unchanged (call : Nat) (old : Record) (now updatedAt : DateTime)
      (loaded : before.calls call = .loaded old now updatedAt) (same : change.modified old now = old) :
      Transition change recordId before ⟨call, .commit⟩ (before.set call before.store .committed)
  | written (call : Nat) (old row : Record) (now updatedAt : DateTime) (later : Store)
      (loaded : before.calls call = .loaded old now updatedAt) (different : change.modified old now ≠ old)
      (found : before.store.find? recordId = some row)
      (writes : later.find? recordId = some (change.columns old row now updatedAt)) :
      Transition change recordId before ⟨call, .commit⟩ (before.set call later .committed)
  | refreshed (call : Nat) (record : Record) (committed : before.calls call = .committed)
      (found : before.store.find? recordId = some record) :
      Transition change recordId before ⟨call, .refresh⟩ (before.set call before.store (.returned (some record)))
  | gone (call : Nat) (act : Act) (missing : before.store.find? recordId = none) :
      Transition change recordId before ⟨call, act⟩ (before.set call before.store .raised)

theorem transition_of_step (stepped : (machine change recordId).step before label = some after) :
    Transition change recordId before label after := by
  obtain ⟨call, act⟩ := label
  obtain ⟨⟨store, phase⟩, advanced, rfl⟩ := Option.map_eq_some_iff.mp stepped
  simp only at advanced ⊢
  unfold advance at advanced
  split at advanced
  next now updatedAt idle =>
    split at advanced
    next missing =>
      cases advanced
      exact .refused call now updatedAt idle fun row found => by cases missing.symm.trans found
    next old found =>
      cases advanced
      split
      next proceeds => exact .loaded call now updatedAt old idle found proceeds
      next unfit =>
        refine .refused call now updatedAt idle fun row present => ?_
        cases found.symm.trans present
        exact Bool.eq_false_iff.mpr unfit
  next old now updatedAt loaded =>
    split at advanced
    next later committed =>
      cases advanced
      rcases commit_outcomes committed with ⟨kept, same⟩ | ⟨different, row, found, writes⟩
      · rw [kept]
        exact .unchanged call old now updatedAt loaded same
      · exact .written call old row now updatedAt store loaded different found writes
    next raises =>
      cases advanced
      exact .gone call .commit (commit_eq_none_iff.mp raises).2
  next committed =>
    split at advanced
    next record found =>
      cases advanced
      exact .refreshed call record committed found
    next missing =>
      cases advanced
      exact .gone call .refresh missing
  next => cases advanced

theorem World.set_cases (world : World) (store : Store) (phase : Phase) (other : Nat) :
    (other = call ∧ (world.set call store phase).calls other = phase) ∨
      (other ≠ call ∧ (world.set call store phase).calls other = world.calls other) := by
  by_cases same : other = call
  · exact .inl ⟨same, same ▸ world.set_self store phase⟩
  · exact .inr ⟨same, world.set_other store phase same⟩

theorem loaded_before {other : Nat} (stepped : (machine change recordId).step before label = some after)
    (loaded : after.calls other = .loaded old now updatedAt) :
    before.calls other = .loaded old now updatedAt ∨
      (before.store.find? recordId = some old ∧ after.store = before.store) := by
  cases transition_of_step stepped with
  | refused call | unchanged call | refreshed call | written call | gone call =>
    rcases before.set_cases _ _ other with ⟨-, own⟩ | ⟨-, kept⟩
    · cases own.symm.trans loaded
    · exact .inl (kept.symm.trans loaded)
  | loaded call now updatedAt old idle found =>
    rcases before.set_cases _ _ other with ⟨-, own⟩ | ⟨-, kept⟩
    · cases own.symm.trans loaded
      exact .inr ⟨found, rfl⟩
    · exact .inl (kept.symm.trans loaded)

/-- A claim about a call that has read the row and goes on to its end, whatever
other calls do. -/
theorem phase_step (claim : Phase → Prop) (present : before.store.find? recordId ≠ none)
    (held : claim (before.calls call)) (begun : ¬ claim .idle)
    (commits : ∀ old now updatedAt, claim (.loaded old now updatedAt) → claim .committed)
    (refreshes : ∀ record, claim .committed → claim (.returned (some record)))
    (stepped : (machine change recordId).step before label = some after) : claim (after.calls call) := by
  cases transition_of_step stepped with
  | refused other _ _ idle | loaded other _ _ _ idle =>
    rcases before.set_cases _ _ call with ⟨same, -⟩ | ⟨-, kept⟩
    · rw [same, idle] at held
      exact absurd held begun
    · rwa [kept]
  | unchanged other old now updatedAt loaded | written other old _ now updatedAt _ loaded =>
    rcases before.set_cases _ _ call with ⟨same, own⟩ | ⟨-, kept⟩
    · rw [same, loaded] at held
      rw [own]
      exact commits old now updatedAt held
    · rwa [kept]
  | refreshed other record committed =>
    rcases before.set_cases _ _ call with ⟨same, own⟩ | ⟨-, kept⟩
    · rw [same, committed] at held
      rw [own]
      exact refreshes record held
    · rwa [kept]
  | gone _ _ missing => exact absurd missing present

/-! ## A call on its own -/

theorem operation_alone (change : Change) (recordId : Int) (idle : before.calls call = .idle)
    {result : Option Record} (done : change.operation before.store recordId now updatedAt = some (later, result)) :
    ∃ rest, (machine change recordId).run before
        (⟨call, .load now updatedAt⟩ :: List.map (Label.mk call) rest) =
      some (before.set call later (.returned result)) := by
  unfold Change.operation at done
  split at done
  next missing =>
    cases done
    exact ⟨[], by simp [Machine.run, machine, advance, idle, missing]⟩
  next old found =>
    split at done
    next proceeds =>
      refine ⟨[.commit, .refresh], ?_⟩
      obtain ⟨⟨_, record⟩, wrote, same⟩ := Option.map_eq_some_iff.mp done
      cases same
      have commits : change.commit before.store recordId old now updatedAt = some later := by
        simp only [Change.commit, found, Option.bind_some, change.columns_self]
        rw [writeBack] at wrote
        split at wrote
        next same => cases wrote; rw [if_pos same]
        next different =>
          obtain ⟨_, replacing, same⟩ := Option.map_eq_some_iff.mp wrote
          cases same
          rw [if_neg different, replacing]
      have readBack : later.find? recordId = some record := by
        rcases commit_outcomes commits with ⟨kept, same⟩ | ⟨different, row, present, writes⟩
        · rw [writeBack, if_pos same] at wrote
          cases wrote
          exact found
        · cases found.symm.trans present
          rw [writes, change.columns_self]
          rcases writeBack_cases wrote with ⟨-, -, same⟩ | ⟨-, rfl, -⟩
          · exact absurd same different
          · rfl
      simp [Machine.run, machine, advance, World.set, idle, found, proceeds, commits, readBack]
    next unfit =>
      cases done
      exact ⟨[], by simp [Machine.run, machine, advance, idle, found, unfit]⟩

def oneRecord : Store := (Table.empty.insert? (Record.ofRequest reading freshOne)).getD Table.empty

def together : List Label :=
  [⟨0, .load (january 10) (january 10)⟩, ⟨1, .load (january 11) (january 11)⟩, ⟨0, .commit⟩, ⟨1, .commit⟩,
    ⟨0, .refresh⟩, ⟨1, .refresh⟩]

end DataPipeline.Ingestor.RecordRace
