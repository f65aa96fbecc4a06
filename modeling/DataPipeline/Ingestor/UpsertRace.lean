import DataPipeline.Ingestor.Upsert

/-! Concurrent upserts of one source and timestamp.

Every call runs in a session of its own. Its INSERT commits at once or is
rejected; after a rejection it rolls back and then reads the active row. Other
sessions may do what they like to rows with other keys.
-/

set_option autoImplicit false

namespace DataPipeline.Ingestor

open Execution Calendar

inductive UpsertMode where
  | idempotent
  | strict
  deriving DecidableEq

/-- The answers of `upsert_record_endpoint`. What nothing catches is a server error. -/
inductive UpsertResponse where
  | conflict (existingId : Int)
  | written (statusCode : Nat) (record : Record) (created : Bool) (mode : UpsertMode)
  | serverError
  deriving DecidableEq

def UpsertResponse.statusCode : UpsertResponse → Nat
  | .conflict _ => 409
  | .written statusCode _ _ _ => statusCode
  | .serverError => 500

def upsertRecordEndpoint (mode : UpsertMode) : Upserted → UpsertResponse
  | .returned record created =>
    if !created ∧ mode = .strict then .conflict record.id
    else if rendersJson record.rawData then .written (if created then 201 else 200) record created mode
    -- The response is rendered after the commit.
    else .serverError
  | .assertionError | .dataError => .serverError

namespace UpsertRace

/-- Where a call stands. `gone` is a refresh that does not find the row. -/
inductive Phase where
  | ready
  | inserted (record : Record)
  | conflicted
  | rolledBack
  | ended (result : Upserted)
  | gone
  deriving DecidableEq

/-- The calls, numbered, with their requests, which agree on the key. -/
structure Race where
  count : Nat
  requests : Nat → RecordRequest
  key : String × DateTime
  sameKey : ∀ call, (requests call).key = key
  nonempty : 0 < count

/-- The columns have room for what any call is to store. -/
def Race.Fits (race : Race) : Prop := ∀ call < race.count, (race.requests call).fits = true

structure World where
  store : Store
  calls : Nat → Phase

def World.initial (store : Store) : World := ⟨store, fun _ => .ready⟩

inductive Label where
  | insert (call : Nat) (fresh : Fresh)
  | refresh (call : Nat)
  | rollback (call : Nat)
  | select (call : Nat)
  | others (store : Store)

variable (race : Race)

def step (world : World) : Label → Option World
  | .insert call fresh =>
    if call < race.count ∧ world.calls call = .ready ∧ fresh.id ∉ world.store.issued then
      if (race.requests call).fits then
        match createRecord world.store (race.requests call) fresh with
        -- Flush and commit are one step, as no other call can see the row before the commit.
        | some (store, record) => some ⟨store, Function.update world.calls call (.inserted record)⟩
        | none => some { world with calls := Function.update world.calls call .conflicted }
      else some { world with calls := Function.update world.calls call (.ended .dataError) }
    else none
  | .refresh call =>
    match world.calls call with
    | .inserted record =>
      -- `session.refresh` reads the row again and raises if it is gone.
      let phase := match world.store.find? record.id with
        | some current => .ended (.returned current true)
        | none => .gone
      some { world with calls := Function.update world.calls call phase }
    | _ => none
  | .rollback call =>
    if world.calls call = .conflicted then
      some { world with calls := Function.update world.calls call .rolledBack }
    else none
  | .select call =>
    if world.calls call = .rolledBack then
      let result := selectExisting world.store (race.requests call)
      some { world with calls := Function.update world.calls call (.ended result) }
    else none
  -- Other sessions leave the row of the key as it is, or leave it absent.
  | .others store => if store.findKey? race.key = world.store.findKey? race.key then some { world with store } else none

def machine : Machine World Label := ⟨step race⟩

/-- What a call may be doing once the key has its row, depending on whether
the call is the one that created it. -/
def Agrees (row : Record) (creator : Prop) : Phase → Prop
  | .ready | .conflicted | .rolledBack => ¬ creator
  | .inserted record => creator ∧ record = row
  | .ended result => ∃ created, result = .returned row created ∧ (created = true ↔ creator)
  | .gone => False

/-- No call has inserted yet, and the key has no row. -/
structure Untouched (start : Store) (world : World) : Prop where
  absent : world.store.findKey? race.key = none
  absentBefore : start.findKey? race.key = none
  ready : ∀ call, world.calls call = .ready

/-- The key has its row: an active one from before, or that of the one call
that created it. -/
structure Decided (start : Store) (world : World) (creator : Option Nat) (row : Record) : Prop where
  present : world.store.findKey? race.key = some row
  active : row.Active
  origin : match creator with
    | none => start.findKey? race.key = some row
    | some call => start.findKey? race.key = none ∧ call < race.count ∧
        ∃ fresh, row = Record.ofRequest (race.requests call) fresh
  agrees : ∀ call, Agrees row (creator = some call) (world.calls call)

def Consistent (start : Store) (world : World) : Prop :=
  Untouched race start world ∨ ∃ creator row, Decided race start world creator row

variable {race} {start : Store} {before after : World}

theorem Decided.update {creator : Option Nat} {row : Record} {call : Nat} {phase : Phase}
    (decided : Decided race start before creator row)
    (agrees : Agrees row (creator = some call) phase) :
    Decided race start { before with calls := Function.update before.calls call phase } creator row where
  present := decided.present
  active := decided.active
  origin := decided.origin
  agrees := by
    intro other
    by_cases same : other = call
    · subst same
      simpa using agrees
    · simpa [Function.update_of_ne same] using decided.agrees other

theorem Decided.step {creator : Option Nat} {row : Record} {label : Label} (fits : race.Fits)
    (decided : Decided race start before creator row)
    (stepped : (machine race).step before label = some after) : Decided race start after creator row := by
  cases label with
  | insert call fresh =>
    simp only [machine, UpsertRace.step] at stepped
    split at stepped
    next enabled =>
      obtain ⟨inside, ready, new⟩ := enabled
      -- An insert that comes late is rejected, whatever the content of the request.
      have taken : createRecord before.store (race.requests call) fresh = none :=
        (createRecord_eq_none_iff new).mpr ⟨row, by rw [race.sameKey]; exact decided.present⟩
      rw [if_pos (fits call inside), taken] at stepped
      cases stepped
      have notCreator := decided.agrees call
      rw [ready] at notCreator
      exact decided.update notCreator
    next => cases stepped
  | refresh call =>
    simp only [machine, UpsertRace.step] at stepped
    split at stepped
    next record inserted =>
      cases stepped
      have creator := decided.agrees call
      rw [inserted] at creator
      obtain ⟨creator, rfl⟩ := creator
      obtain ⟨member, -⟩ := Table.findKey?_eq_some_iff.mp decided.present
      -- Nobody has changed the row since the creator inserted it.
      have found : before.store.find? record.id = some record := Table.find?_of_mem member
      rw [found]
      exact decided.update ⟨true, rfl, by simp [creator]⟩
    all_goals cases stepped
  | rollback call =>
    simp only [machine, UpsertRace.step] at stepped
    split at stepped
    next conflicted =>
      cases stepped
      have notCreator := decided.agrees call
      rw [conflicted] at notCreator
      exact decided.update notCreator
    next => cases stepped
  | select call =>
    simp only [machine, UpsertRace.step] at stepped
    split at stepped
    next rolledBack =>
      cases stepped
      have notCreator := decided.agrees call
      rw [rolledBack] at notCreator
      refine decided.update ⟨false, ?_, by simpa [Agrees] using notCreator⟩
      have taken : before.store.findKey? (race.requests call).key = some row := by
        rw [race.sameKey]
        exact decided.present
      rw [selectExisting_of_taken taken, if_pos decided.active]
    next => cases stepped
  | others store =>
    simp only [machine, UpsertRace.step] at stepped
    split at stepped
    next same => cases stepped; exact ⟨same.trans decided.present, decided.active, decided.origin, decided.agrees⟩
    next => cases stepped

/-- Before the first insert nothing but that insert can happen to the key. -/
theorem Untouched.step {label : Label} (fits : race.Fits) (untouched : Untouched race start before)
    (stepped : (machine race).step before label = some after) : Consistent race start after := by
  cases label with
  | insert call fresh =>
    simp only [machine, UpsertRace.step] at stepped
    split at stepped
    next enabled =>
      obtain ⟨inside, -, new⟩ := enabled
      rw [if_pos (fits call inside)] at stepped
      cases created : createRecord before.store (race.requests call) fresh with
      | none =>
        obtain ⟨old, found⟩ := (createRecord_eq_none_iff new).mp created
        rw [race.sameKey, untouched.absent] at found
        cases found
      | some result =>
        obtain ⟨store, record⟩ := result
        rw [created] at stepped
        cases stepped
        obtain ⟨rfl, inserted⟩ := createRecord_eq_some created
        refine .inr ⟨some call, Record.ofRequest (race.requests call) fresh, ?_, rfl,
          ⟨untouched.absentBefore, inside, fresh, rfl⟩, fun other => ?_⟩
        · exact Table.findKey?_eq_some_iff.mpr ⟨(Table.mem_insert? inserted).mpr (.inr rfl), race.sameKey call⟩
        -- The call becomes the creator; all others are still ready and are not.
        · by_cases same : other = call
          · subst same
            simp [Agrees]
          · simp [Function.update_of_ne same, untouched.ready other, Agrees, Ne.symm same]
    next => cases stepped
  | refresh call | rollback call | select call =>
    simp [machine, UpsertRace.step, untouched.ready call] at stepped
  | others store =>
    simp only [machine, UpsertRace.step] at stepped
    split at stepped
    next same => cases stepped; exact .inl ⟨same.trans untouched.absent, untouched.absentBefore, untouched.ready⟩
    next => cases stepped

/-- A call that has ended returned the row of the key, as created exactly if it is the creator. -/
theorem Decided.ended {creator : Option Nat} {row : Record} {call : Nat} {result : Upserted}
    (decided : Decided race start before creator row) (ended : before.calls call = .ended result) :
    result = .returned row (creator = some call) := by
  have agrees := decided.agrees call
  rw [ended] at agrees
  obtain ⟨created, rfl, same⟩ := agrees
  congr 1
  exact Bool.eq_iff_iff.mpr (same.trans (by simp))

def remaining : Phase → Nat
  | .ready => 3
  | .conflicted => 2
  | .rolledBack | .inserted _ => 1
  | .ended _ | .gone => 0

theorem moves {world : World} {store : Store} {call : Nat} {phase : Phase}
    (fewer : remaining phase < remaining (world.calls call)) :
    ∃ next, some (⟨store, Function.update world.calls call phase⟩ : World) = some next ∧
      remaining (next.calls call) < remaining (world.calls call) :=
  ⟨_, rfl, by simpa using fewer⟩

/-- No call is ever stuck, as long as the database has ids to give out. -/
theorem progress (world : World) (call : Nat) (inside : call < race.count)
    (unfinished : remaining (world.calls call) ≠ 0) (fresh : Fresh) (new : fresh.id ∉ world.store.issued) :
    ∃ label next, (machine race).step world label = some next ∧
      remaining (next.calls call) < remaining (world.calls call) := by
  cases phase : world.calls call with
  | ready =>
    refine ⟨.insert call fresh, ?_⟩
    simp only [machine, UpsertRace.step, inside, phase, new, not_false_eq_true, and_self, ↓reduceIte]
    -- The goal measures the call by its phase, which is what decreases.
    rw [← phase]
    cases (race.requests call).fits with
    | false => exact moves (by simp [remaining, phase])
    | true =>
      cases createRecord world.store (race.requests call) fresh with
      | none => exact moves (by simp [remaining, phase])
      | some result => exact moves (by simp [remaining, phase])
  | inserted record =>
    refine ⟨.refresh call, ?_⟩
    simp only [machine, UpsertRace.step, phase]
    rw [← phase]
    cases world.store.find? record.id with
    | none => exact moves (by simp [remaining, phase])
    | some current => exact moves (by simp [remaining, phase])
  | conflicted =>
    refine ⟨.rollback call, ?_⟩
    simp only [machine, UpsertRace.step, phase, ↓reduceIte]
    rw [← phase]
    exact moves (by simp [remaining, phase])
  | rolledBack =>
    refine ⟨.select call, ?_⟩
    simp only [machine, UpsertRace.step, phase, ↓reduceIte]
    rw [← phase]
    exact moves (by simp [remaining, phase])
  | ended | gone => rw [phase] at unfinished; exact absurd rfl unfinished

/-- All calls returned one row, the only one with the key; it is the row from
before the race, or that of the one call that reports a creation. -/
structure Agreement (race : Race) (start : Store) (final : World) (row : Record) (created : Nat → Bool) :
    Prop where
  only : ∀ record, record ∈ final.store.rows ∧ record.key = race.key ↔ record = row
  returned : ∀ call < race.count, final.calls call = .ended (.returned row (created call))
  creation : match start.findKey? race.key with
    | some old => row = old ∧ ∀ call < race.count, created call = false
    | none => ∃ creator < race.count, (∀ call < race.count, created call = true ↔ call = creator) ∧
        ∃ fresh, row = Record.ofRequest (race.requests creator) fresh
  strict : ∀ call < race.count, created call = false ∨ rendersJson row.rawData = true →
    (upsertRecordEndpoint .strict (.returned row (created call))).statusCode = if created call then 201 else 409
  idempotent : rendersJson row.rawData = true → ∀ call < race.count,
    (upsertRecordEndpoint .idempotent (.returned row (created call))).statusCode =
      if created call then 201 else 200

theorem Decided.agreement {creator : Option Nat} {row : Record} (decided : Decided race start before creator row)
    (ended : ∀ call < race.count, ∃ result, before.calls call = .ended result) :
    Agreement race start before row fun call => creator = some call where
  only := by
    intro record
    rw [← Table.findKey?_eq_some_iff, decided.present, Option.some.injEq]
    exact eq_comm
  returned := by
    intro call inside
    obtain ⟨result, ended⟩ := ended call inside
    rw [ended, decided.ended ended]
  creation := by
    have origin := decided.origin
    cases creator with
    | none => simp only [origin, true_and]; simp
    | some call =>
      obtain ⟨absent, inside, fresh⟩ := origin
      simp only [absent]
      exact ⟨call, inside, by simp [eq_comm], fresh⟩
  strict := by
    intro call _ renders
    cases created : decide (creator = some call) with
    | false => rfl
    | true =>
      rw [created] at renders
      simp [upsertRecordEndpoint, UpsertResponse.statusCode, renders.resolve_left (by simp)]
  idempotent := by
    intro renders call _
    cases decide (creator = some call) <;> simp [upsertRecordEndpoint, UpsertResponse.statusCode, renders]

/-- Two calls with different contents; the second inserts first. -/
def pair : Race where
  count := 2
  requests call := { reading with tags := [toString call] }
  key := reading.key
  sameKey _ := rfl
  nonempty := by omega

def single (data : List (Encoding.Text × Json)) : Race where
  count := 1
  requests _ := { reading with data }
  key := reading.key
  sameKey _ := rfl
  nonempty := by omega

end UpsertRace

end DataPipeline.Ingestor
