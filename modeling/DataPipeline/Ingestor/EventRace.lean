import DataPipeline.Ingestor.Events
import DataPipeline.Library.Execution
import Mathlib.Logic.Function.Basic

/-! Concurrent calls of `create_processed_event` and of the `mark_event_*`
functions, on events of any keys.

Every call runs in a session of its own. An INSERT commits at once or is
rejected, and a rejected call rolls back and then reads the event. A mark reads
its event in one step and writes it back in another. No event is deleted.
-/

set_option autoImplicit false

namespace DataPipeline.Ingestor

open Execution Calendar

/-! ## Calls and their steps -/

/-- The calls of either kind, numbered, with their arguments, which fit their columns. -/
structure EventRace where
  creates : Nat
  data : Nat → EventData
  fits : ∀ call, (data call).fits = true
  marks : Nat
  target : Nat → Int
  kind : Nat → EventMark

namespace EventRace

inductive CreatePhase where
  | ready
  | inserted (eventId : Int)
  | conflicted
  | rolledBack
  | ended (event : Option ProcessedEvent) (created : Bool)
  | raised
  deriving DecidableEq

inductive MarkPhase where
  | ready
  | loaded (snapshot : ProcessedEvent)
  | committed
  | ended (event : Option ProcessedEvent)
  | raised
  deriving DecidableEq

structure World where
  store : EventStore
  creates : Nat → CreatePhase
  marks : Nat → MarkPhase

def World.initial (store : EventStore) : World := ⟨store, fun _ => .ready, fun _ => .ready⟩

inductive Label where
  | insert (call : Nat) (fresh : Fresh)
  | refresh (call : Nat)
  | rollback (call : Nat)
  | select (call : Nat)
  | load (call : Nat)
  | commit (call : Nat) (updatedAt : DateTime)
  | reload (call : Nat)
  deriving DecidableEq

def World.setCreate (world : World) (call : Nat) (phase : CreatePhase) : World :=
  { world with creates := Function.update world.creates call phase }

def World.setMark (world : World) (call : Nat) (phase : MarkPhase) : World :=
  { world with marks := Function.update world.marks call phase }

variable (race : EventRace)

def step (world : World) : Label → Option World
  | .insert call fresh =>
    if call < race.creates ∧ world.creates call = .ready ∧ fresh.id ∉ world.store.issued then
      match insertEvent world.store (race.data call) fresh with
      -- Flush and commit are one step, as no other call can see the row before the commit.
      | .ok (store, event) => some ({ world with store }.setCreate call (.inserted event.id))
      | .error .integrityError => some (world.setCreate call .conflicted)
      | .error _ => some (world.setCreate call .raised)
    else none
  | .refresh call =>
    match world.creates call with
    | .inserted eventId =>
      match world.store.find? eventId with
      | some event => some (world.setCreate call (.ended (some event) true))
      | none => some (world.setCreate call .raised)
    | _ => none
  | .rollback call =>
    if world.creates call = .conflicted then some (world.setCreate call .rolledBack) else none
  | .select call =>
    if world.creates call = .rolledBack then
      let existing := selectDuplicate world.store (race.data call).idempotencyKey
      some (world.setCreate call (.ended existing false))
    else none
  | .load call =>
    if call < race.marks ∧ world.marks call = .ready then
      match world.store.find? (race.target call) with
      | some event => some (world.setMark call (.loaded event))
      | none => some (world.setMark call (.ended none))
    else none
  | .commit call updatedAt =>
    match world.marks call with
    | .loaded snapshot =>
      -- Only what differs from the loaded event is written, whatever the row holds by now.
      match writeChanges world.store (race.target call) ((race.kind call).changes snapshot) updatedAt with
      | .ok store => some ({ world with store }.setMark call .committed)
      | .error _ => some (world.setMark call .raised)
    | _ => none
  | .reload call =>
    if world.marks call = .committed then
      match world.store.find? (race.target call) with
      | some event => some (world.setMark call (.ended (some event)))
      | none => some (world.setMark call .raised)
    else none

def machine : Machine World Label := ⟨step race⟩

variable {race} {start : EventStore} {before after : World} {call : Nat}

/-! ## What each step does -/

inductive Transition (race : EventRace) (before : World) : Label → World → Prop where
  | inserted {call : Nat} {fresh : Fresh} {store : EventStore} (inside : call < race.creates)
      (ready : before.creates call = .ready) (new : fresh.id ∉ before.store.issued)
      (inserted : before.store.insert? (ProcessedEvent.ofData (race.data call) fresh) = some store) :
      Transition race before (.insert call fresh) ({ before with store }.setCreate call (.inserted fresh.id))
  | conflicted {call : Nat} {fresh : Fresh} {old : ProcessedEvent} (inside : call < race.creates)
      (ready : before.creates call = .ready) (new : fresh.id ∉ before.store.issued)
      (taken : before.store.findKey? (race.data call).idempotencyKey = some old) :
      Transition race before (.insert call fresh) (before.setCreate call .conflicted)
  | refreshed {call : Nat} {eventId : Int} {event : ProcessedEvent}
      (inserted : before.creates call = .inserted eventId) (found : before.store.find? eventId = some event) :
      Transition race before (.refresh call) (before.setCreate call (.ended (some event) true))
  | vanished {call : Nat} {eventId : Int} (inserted : before.creates call = .inserted eventId)
      (missing : before.store.find? eventId = none) :
      Transition race before (.refresh call) (before.setCreate call .raised)
  | rolledBack {call : Nat} (conflicted : before.creates call = .conflicted) :
      Transition race before (.rollback call) (before.setCreate call .rolledBack)
  | selected {call : Nat} (rolledBack : before.creates call = .rolledBack) :
      Transition race before (.select call)
        (before.setCreate call (.ended (selectDuplicate before.store (race.data call).idempotencyKey) false))
  | loaded {call : Nat} {event : ProcessedEvent} (inside : call < race.marks) (ready : before.marks call = .ready)
      (found : before.store.find? (race.target call) = some event) :
      Transition race before (.load call) (before.setMark call (.loaded event))
  | missing {call : Nat} (inside : call < race.marks) (ready : before.marks call = .ready)
      (missing : before.store.find? (race.target call) = none) :
      Transition race before (.load call) (before.setMark call (.ended none))
  | committed {call : Nat} {updatedAt : DateTime} {snapshot : ProcessedEvent} {store : EventStore}
      (loaded : before.marks call = .loaded snapshot)
      (written : writeChanges before.store (race.target call) ((race.kind call).changes snapshot) updatedAt =
        .ok store) :
      Transition race before (.commit call updatedAt) ({ before with store }.setMark call .committed)
  | refused {call : Nat} {updatedAt : DateTime} {snapshot : ProcessedEvent} {error : DatabaseError}
      (loaded : before.marks call = .loaded snapshot)
      (refused : writeChanges before.store (race.target call) ((race.kind call).changes snapshot) updatedAt =
        .error error) :
      Transition race before (.commit call updatedAt) (before.setMark call .raised)
  | reloaded {call : Nat} {event : ProcessedEvent} (committed : before.marks call = .committed)
      (found : before.store.find? (race.target call) = some event) :
      Transition race before (.reload call) (before.setMark call (.ended (some event)))
  | gone {call : Nat} (committed : before.marks call = .committed)
      (missing : before.store.find? (race.target call) = none) :
      Transition race before (.reload call) (before.setMark call .raised)

theorem transition_of_step {label : Label} (stepped : (machine race).step before label = some after) :
    Transition race before label after := by
  cases label with
  | insert call fresh =>
    simp only [machine, EventRace.step, Option.ite_none_right_eq_some] at stepped
    obtain ⟨⟨inside, ready, new⟩, stepped⟩ := stepped
    rcases insertEvent_cases before.store (race.data call) fresh new with ⟨misfit, -⟩ |
      ⟨-, ⟨old, taken⟩, rejected⟩ | ⟨-, -, store, inserted, accepted⟩
    · rw [race.fits] at misfit
      cases misfit
    · rw [rejected] at stepped
      cases stepped
      exact .conflicted inside ready new taken
    · rw [accepted] at stepped
      cases stepped
      exact .inserted inside ready new inserted
  | refresh call =>
    simp only [machine, EventRace.step] at stepped
    split at stepped
    next eventId inserted =>
      split at stepped
      next event found => cases stepped; exact .refreshed inserted found
      next missing => cases stepped; exact .vanished inserted missing
    all_goals cases stepped
  | rollback call =>
    simp only [machine, EventRace.step, Option.ite_none_right_eq_some, Option.some.injEq] at stepped
    obtain ⟨conflicted, rfl⟩ := stepped
    exact .rolledBack conflicted
  | select call =>
    simp only [machine, EventRace.step, Option.ite_none_right_eq_some, Option.some.injEq] at stepped
    obtain ⟨rolledBack, rfl⟩ := stepped
    exact .selected rolledBack
  | load call =>
    simp only [machine, EventRace.step, Option.ite_none_right_eq_some] at stepped
    obtain ⟨⟨inside, ready⟩, stepped⟩ := stepped
    split at stepped
    next event found => cases stepped; exact .loaded inside ready found
    next missing => cases stepped; exact .missing inside ready missing
  | commit call updatedAt =>
    simp only [machine, EventRace.step] at stepped
    split at stepped
    next snapshot loaded =>
      split at stepped
      next store written => cases stepped; exact .committed loaded written
      next error refused => cases stepped; exact .refused loaded refused
    all_goals cases stepped
  | reload call =>
    simp only [machine, EventRace.step, Option.ite_none_right_eq_some] at stepped
    obtain ⟨committed, stepped⟩ := stepped
    split at stepped
    next event found => cases stepped; exact .reloaded committed found
    next missing => cases stepped; exact .gone committed missing

structure Carries (store after : EventStore) : Prop where
  issued : after.issued = store.issued
  kept : ∀ row ∈ store.rows, ∃ later ∈ after.rows, later.id = row.id ∧ later.data = row.data
  old : ∀ later ∈ after.rows, ∃ row ∈ store.rows, row.id = later.id ∧ row.data = later.data

theorem Carries.refl (store : EventStore) : Carries store store where
  issued := rfl
  kept row member := ⟨row, member, rfl, rfl⟩
  old row member := ⟨row, member, rfl, rfl⟩

theorem Carries.rewritten {store after : EventStore} {event : ProcessedEvent} {changes : EventChanges}
    {updatedAt : DateTime} (member : event ∈ store.rows)
    (rewritten : Rewritten store after (event.write changes updatedAt)) : Carries store after where
  issued := rewritten.issued
  kept row isRow := by
    by_cases same : row.id = event.id
    · have equal := Table.eq_of_id isRow member same
      subst equal
      exact ⟨_, rewritten.mem_iff.mpr (.inl rfl), by simp⟩
    · exact ⟨row, rewritten.mem_iff.mpr (.inr ⟨isRow, by simpa using same⟩), rfl, rfl⟩
  old later isLater := by
    rcases rewritten.mem_iff.mp isLater with rfl | ⟨isRow, -⟩
    · exact ⟨event, member, by simp⟩
    · exact ⟨later, isRow, rfl, rfl⟩

theorem Carries.written {store after : EventStore} {eventId : Int} {changes : EventChanges} {updatedAt : DateTime}
    (written : writeChanges store eventId changes updatedAt = .ok after) : Carries store after := by
  rcases writeChanges_ok written with ⟨-, rfl⟩ | ⟨event, found, rewritten⟩
  · exact .refl _
  · exact .rewritten (Table.find?_eq_some_iff.mp found).1 rewritten

/-! ## Who created which row -/

def CreatePhase.createdId : CreatePhase → Option Int
  | .inserted eventId => some eventId
  | .ended (some event) true => some event.id
  | .ready | .conflicted | .rolledBack | .ended _ _ | .raised => none

def Agrees (store : EventStore) (key : String) : CreatePhase → Prop
  | .ready | .inserted _ => True
  | .conflicted | .rolledBack => ∃ row ∈ store.rows, row.idempotencyKey = key
  | .ended (some event) _ => ∃ row ∈ store.rows, row.id = event.id ∧ row.idempotencyKey = key
  | .ended none _ | .raised => False

/-- Every row is from before or was inserted by one call, whose data it has. -/
structure Traced (race : EventRace) (start : EventStore) (world : World) : Prop where
  issued : ∀ id ∈ start.issued, id ∈ world.store.issued
  kept : ∀ old ∈ start.rows, ∃ row ∈ world.store.rows, row.id = old.id ∧ row.data = old.data
  origin : ∀ row ∈ world.store.rows, (∃ old ∈ start.rows, old.id = row.id) ∨
    ∃ call, (world.creates call).createdId = some row.id
  creator : ∀ call id, (world.creates call).createdId = some id →
    call < race.creates ∧ id ∉ start.issued ∧ ∃ row ∈ world.store.rows, row.id = id ∧ row.data = race.data call
  single : ∀ call other id, (world.creates call).createdId = some id →
    (world.creates other).createdId = some id → call = other
  agrees : ∀ call, Agrees world.store (race.data call).idempotencyKey (world.creates call)

theorem traced_initial (race : EventRace) (start : EventStore) : Traced race start (.initial start) where
  issued _ member := member
  kept old member := ⟨old, member, rfl, rfl⟩
  origin row member := .inl ⟨row, member, rfl⟩
  creator _ _ created := by cases created
  single _ _ _ created := by cases created
  agrees _ := trivial

theorem Agrees.carry {store after : EventStore} {key : String} {phase : CreatePhase}
    (agrees : Agrees store key phase)
    (kept : ∀ row ∈ store.rows, ∃ later ∈ after.rows, later.id = row.id ∧ later.data = row.data) :
    Agrees after key phase := by
  have key_eq {later row : ProcessedEvent} (data : later.data = row.data) :
      later.idempotencyKey = row.idempotencyKey := by
    unfold ProcessedEvent.idempotencyKey
    rw [data]
  match phase, agrees with
  | .ready, _ | .inserted _, _ => exact trivial
  | .conflicted, ⟨row, member, named⟩ | .rolledBack, ⟨row, member, named⟩ =>
    obtain ⟨later, isLater, -, data⟩ := kept row member
    exact ⟨later, isLater, (key_eq data).trans named⟩
  | .ended (some event) _, ⟨row, member, same, named⟩ =>
    obtain ⟨later, isLater, id, data⟩ := kept row member
    exact ⟨later, isLater, id.trans same, (key_eq data).trans named⟩

theorem Traced.carry (traced : Traced race start before) (carries : Carries before.store after.store)
    (creates : after.creates = before.creates) : Traced race start after where
  issued id member := by
    rw [carries.issued]
    exact traced.issued id member
  kept old member := by
    obtain ⟨row, isRow, id, data⟩ := traced.kept old member
    obtain ⟨later, isLater, laterId, laterData⟩ := carries.kept row isRow
    exact ⟨later, isLater, laterId.trans id, laterData.trans data⟩
  origin later isLater := by
    obtain ⟨row, isRow, id, -⟩ := carries.old later isLater
    rw [creates, ← id]
    exact traced.origin row isRow
  creator call id created := by
    rw [creates] at created
    obtain ⟨inside, new, row, isRow, named, data⟩ := traced.creator call id created
    obtain ⟨later, isLater, laterId, laterData⟩ := carries.kept row isRow
    exact ⟨inside, new, later, isLater, laterId.trans named, laterData.trans data⟩
  single call other id := by
    rw [creates]
    exact traced.single call other id
  agrees call := by
    rw [creates]
    exact (traced.agrees call).carry carries.kept

theorem Traced.move (traced : Traced race start before) {phase : CreatePhase}
    (same : phase.createdId = (before.creates call).createdId)
    (agrees : Agrees before.store (race.data call).idempotencyKey phase) :
    Traced race start (before.setCreate call phase) := by
  have created : ∀ other, ((before.setCreate call phase).creates other).createdId =
      (before.creates other).createdId := by
    intro other
    simp only [World.setCreate, Function.update_apply]
    split
    next own => rw [own, same]
    next => rfl
  refine ⟨traced.issued, traced.kept, fun row member => ?_, fun other id claim => ?_,
    fun one other id first second => ?_, fun other => ?_⟩
  · simpa only [created] using traced.origin row member
  · rw [created] at claim
    exact traced.creator other id claim
  · rw [created] at first second
    exact traced.single one other id first second
  · simp only [World.setCreate, Function.update_apply]
    split
    next own => rw [own]; exact agrees
    next => exact traced.agrees other

/-- An INSERT was accepted, and its call is the one creator of a new row. -/
theorem Traced.insert (traced : Traced race start before) {fresh : Fresh} {store : EventStore}
    (inside : call < race.creates) (ready : before.creates call = .ready) (new : fresh.id ∉ before.store.issued)
    (inserted : before.store.insert? (ProcessedEvent.ofData (race.data call) fresh) = some store) :
    Traced race start ({ before with store }.setCreate call (.inserted fresh.id)) := by
  have kept : ∀ row ∈ before.store.rows, ∃ later ∈ store.rows, later.id = row.id ∧ later.data = row.data :=
    fun row member => ⟨row, (Table.mem_insert? inserted).mpr (.inl member), rfl, rfl⟩
  have issued : store.issued = fresh.id :: before.store.issued := (Table.insert?_fresh inserted).2
  -- No call had a claim to the new id, because it had not been given out.
  have unclaimed : ∀ other, (before.creates other).createdId ≠ some fresh.id := by
    intro other claimed
    obtain ⟨-, -, row, member, named, -⟩ := traced.creator other fresh.id claimed
    exact new (named ▸ before.store.ids_issued row member)
  have created : ∀ other,
      ((({ before with store } : World).setCreate call (.inserted fresh.id)).creates other).createdId =
      if other = call then some fresh.id else (before.creates other).createdId := by
    intro other
    simp only [World.setCreate, Function.update_apply]
    split <;> rfl
  refine ⟨fun id member => ?_, fun old member => ?_, fun row member => ?_, fun other id claim => ?_,
    fun one other id first second => ?_, fun other => ?_⟩
  · simp only [World.setCreate, issued]
    exact List.mem_cons_of_mem _ (traced.issued id member)
  · obtain ⟨row, isRow, same⟩ := traced.kept old member
    exact ⟨row, (Table.mem_insert? inserted).mpr (.inl isRow), same⟩
  · simp only [created]
    rcases (Table.mem_insert? inserted).mp member with isRow | rfl
    · rcases traced.origin row isRow with old | ⟨other, claim⟩
      · exact .inl old
      · refine .inr ⟨other, ?_⟩
        split
        next own =>
          rw [own, ready] at claim
          cases claim
        next => exact claim
    · exact .inr ⟨call, if_pos rfl⟩
  · rw [created] at claim
    split at claim
    next own =>
      cases claim
      subst own
      exact ⟨inside, fun old => new (traced.issued _ old), _, (Table.mem_insert? inserted).mpr (.inr rfl), rfl, rfl⟩
    next =>
      obtain ⟨isCall, fresh, row, isRow, same⟩ := traced.creator other id claim
      exact ⟨isCall, fresh, row, (Table.mem_insert? inserted).mpr (.inl isRow), same⟩
  · rw [created] at first second
    split at first <;> split at second
    next own other => rw [own, other]
    next => cases first; exact absurd second (unclaimed other)
    next => cases second; exact absurd first (unclaimed one)
    next => exact traced.single one other id first second
  · simp only [World.setCreate, Function.update_apply]
    split
    next => exact trivial
    next => exact (traced.agrees other).carry kept

theorem Traced.step {label : Label} (traced : Traced race start before)
    (stepped : (machine race).step before label = some after) : Traced race start after := by
  cases transition_of_step stepped with
  | inserted inside ready new inserted => exact traced.insert inside ready new inserted
  | conflicted inside ready new taken =>
    obtain ⟨member, named⟩ := Table.findKey?_eq_some_iff.mp taken
    exact traced.move (by rw [ready]; rfl) ⟨_, member, named⟩
  | refreshed inserted found =>
    obtain ⟨-, -, row, member, named, data⟩ := traced.creator _ _ (by rw [inserted]; rfl)
    -- Marks have left the row where it is.
    have same := Option.some.inj (found.symm.trans (Table.find?_eq_some_iff.mpr ⟨member, named⟩))
    subst same
    have key := congrArg EventData.idempotencyKey data
    exact traced.move (by rw [inserted, ← named]; rfl) ⟨_, member, rfl, key⟩
  | vanished inserted missing =>
    obtain ⟨-, -, row, member, named, -⟩ := traced.creator _ _ (by rw [inserted]; rfl)
    rw [Table.find?_eq_some_iff.mpr ⟨member, named⟩] at missing
    cases missing
  | @rolledBack call conflicted =>
    have agrees := traced.agrees call
    rw [conflicted] at agrees
    exact traced.move (by rw [conflicted]; rfl) agrees
  | @selected call rolledBack =>
    have agrees := traced.agrees call
    rw [rolledBack] at agrees
    obtain ⟨row, member, named⟩ := agrees
    have found : selectDuplicate before.store (race.data call).idempotencyKey = some row :=
      Table.findKey?_eq_some_iff.mpr ⟨member, named⟩
    rw [found]
    exact traced.move (by rw [rolledBack]; rfl) ⟨row, member, rfl, named⟩
  | committed loaded written => exact traced.carry (.written written) rfl
  | loaded | missing | refused | reloaded | gone => exact traced.carry (.refl _) rfl

theorem traced_run {labels : List Label} {final : World}
    (ran : (machine race).run (.initial start) labels = some final) : Traced race start final :=
  Machine.invariant_of_step (Traced race start) (traced_initial race start) (fun _ _ _ traced => traced.step) ran

/-! ## What the calls return -/

def remaining : CreatePhase → Nat
  | .ready => 3
  | .conflicted => 2
  | .rolledBack | .inserted _ => 1
  | .ended _ _ | .raised => 0

theorem remaining_setCreate {phase : CreatePhase} (world : World)
    (fewer : remaining phase < remaining (before.creates call)) :
    remaining ((world.setCreate call phase).creates call) < remaining (before.creates call) := by
  simpa [World.setCreate] using fewer

/-- No call is ever stuck, as long as the database has ids to give out. -/
theorem Traced.progress (traced : Traced race start before) (inside : call < race.creates)
    (unfinished : remaining (before.creates call) ≠ 0) (fresh : Fresh) (new : fresh.id ∉ before.store.issued) :
    ∃ label next, (machine race).step before label = some next ∧
      remaining (next.creates call) < remaining (before.creates call) := by
  cases phase : before.creates call with
  | ready =>
    refine ⟨.insert call fresh, ?_⟩
    simp only [machine, EventRace.step, inside, phase, new, not_false_eq_true, and_self, ↓reduceIte]
    rw [← phase]
    rcases insertEvent_cases before.store (race.data call) fresh new with ⟨misfit, -⟩ | ⟨-, -, rejected⟩ |
      ⟨-, -, store, -, accepted⟩
    · rw [race.fits] at misfit
      cases misfit
    · rw [rejected]
      exact ⟨_, rfl, remaining_setCreate _ (by simp [remaining, phase])⟩
    · rw [accepted]
      exact ⟨_, rfl, remaining_setCreate _ (by simp [remaining, phase])⟩
  | inserted eventId =>
    obtain ⟨-, -, row, member, rfl, -⟩ := traced.creator call eventId (by rw [phase]; rfl)
    refine ⟨.refresh call, ?_⟩
    simp only [machine, EventRace.step, phase, Table.find?_of_mem member]
    rw [← phase]
    exact ⟨_, rfl, remaining_setCreate _ (by simp [remaining, phase])⟩
  | conflicted =>
    refine ⟨.rollback call, ?_⟩
    simp only [machine, EventRace.step, phase, ↓reduceIte]
    rw [← phase]
    exact ⟨_, rfl, remaining_setCreate _ (by simp [remaining, phase])⟩
  | rolledBack =>
    refine ⟨.select call, ?_⟩
    simp only [machine, EventRace.step, phase, ↓reduceIte]
    rw [← phase]
    exact ⟨_, rfl, remaining_setCreate _ (by simp [remaining, phase])⟩
  | ended | raised => rw [phase] at unfinished; exact absurd rfl unfinished

/-- What all calls for a key have returned: the id of the one row with the key.
It is the row from before the race, or it has the data of the one call that
reports a creation. -/
structure OneEvent (race : EventRace) (start : EventStore) (final : World) (key : String) (row : ProcessedEvent)
    (created : Nat → Bool) : Prop where
  only : ∀ other, other ∈ final.store.rows ∧ other.idempotencyKey = key ↔ other = row
  returned : ∀ call < race.creates, (race.data call).idempotencyKey = key →
    ∃ event, final.creates call = .ended (some event) (created call) ∧ event.id = row.id
  creation : match start.findKey? key with
    | some old => row.id = old.id ∧ row.data = old.data ∧
        ∀ call < race.creates, (race.data call).idempotencyKey = key → created call = false
    | none => ∃ creator < race.creates, (race.data creator).idempotencyKey = key ∧ row.data = race.data creator ∧
        ∀ call < race.creates, (race.data call).idempotencyKey = key → (created call = true ↔ call = creator)

theorem Traced.created_iff (traced : Traced race start before) {row event : ProcessedEvent} {created : Bool}
    (member : row ∈ before.store.rows) (named : row.idempotencyKey = (race.data call).idempotencyKey)
    (ended : before.creates call = .ended (some event) created) :
    event.id = row.id ∧ (created = true ↔ (before.creates call).createdId = some row.id) := by
  have agrees := traced.agrees call
  rw [ended] at agrees
  obtain ⟨other, isOther, id, key⟩ := agrees
  have same : other = row := Table.eq_of_key isOther member (key.trans named.symm)
  rw [same] at id
  refine ⟨id.symm, ?_⟩
  rw [ended]
  cases created with
  | true => simp [CreatePhase.createdId, id]
  | false => simp [CreatePhase.createdId]

theorem Traced.oneEvent (traced : Traced race start before) (inside : call < race.creates)
    (ended : ∀ call < race.creates, ∃ event created, before.creates call = .ended event created) :
    ∃ row created, OneEvent race start before (race.data call).idempotencyKey row created := by
  have returned : ∀ call < race.creates, ∃ event created, before.creates call = .ended (some event) created := by
    intro call inside
    obtain ⟨event, created, phase⟩ := ended call inside
    have agrees := traced.agrees call
    rw [phase] at agrees
    cases event with
    | none => exact absurd agrees id
    | some event => exact ⟨event, created, phase⟩
  obtain ⟨event, created, phase⟩ := returned call inside
  have agrees := traced.agrees call
  rw [phase] at agrees
  obtain ⟨row, member, -, named⟩ := agrees
  refine ⟨row, fun other => (before.creates other).createdId = some row.id, ?_, ?_, ?_⟩
  · intro other
    constructor
    · rintro ⟨isRow, key⟩
      exact Table.eq_of_key isRow member (key.trans named.symm)
    · rintro rfl
      exact ⟨member, named⟩
  · intro other isCall key
    obtain ⟨event, created, phase⟩ := returned other isCall
    obtain ⟨id, claims⟩ := traced.created_iff member (named.trans key.symm) phase
    have same : created = decide ((before.creates other).createdId = some row.id) :=
      Bool.eq_iff_iff.mpr (by rw [claims, decide_eq_true_eq])
    rw [same] at phase
    exact ⟨event, phase, id⟩
  · cases found : start.findKey? (race.data call).idempotencyKey with
    | some old =>
      obtain ⟨isOld, oldNamed⟩ := Table.findKey?_eq_some_iff.mp found
      obtain ⟨later, isLater, id, data⟩ := traced.kept old isOld
      have key : later.idempotencyKey = row.idempotencyKey := by
        rw [named, ← oldNamed, ProcessedEvent.idempotencyKey, ProcessedEvent.idempotencyKey, data]
      have same := Table.eq_of_key isLater member key
      subst same
      refine ⟨id, data, fun other _ _ => decide_eq_false fun claim => ?_⟩
      -- An old row has an id from before, which no call was given.
      exact (traced.creator other _ claim).2.1 (id ▸ start.ids_issued old isOld)
    | none =>
      rcases traced.origin row member with ⟨old, isOld, id⟩ | ⟨creator, claim⟩
      · obtain ⟨later, isLater, laterId, data⟩ := traced.kept old isOld
        have same := Table.eq_of_id isLater member (laterId.trans id)
        subst same
        have absent := Table.findKey?_eq_none_iff.mp found old isOld
        rw [ProcessedEvent.idempotencyKey, ← data] at absent
        exact absurd named absent
      · obtain ⟨isCall, -, other, isOther, id, data⟩ := traced.creator creator row.id claim
        have same := Table.eq_of_id isOther member id
        subst same
        refine ⟨creator, isCall, ?_, data, fun other _ _ => ?_⟩
        · rw [← named, ProcessedEvent.idempotencyKey, data]
        · rw [decide_eq_true_eq]
          constructor
          · intro claimed
            exact traced.single other creator _ claimed claim
          · rintro rfl
            exact claim

/-- In every interleaving with each other and with marks, from any table: no
call raises or returns nothing, none is ever stuck, and when all have ended
they agree on one event for each key. -/
theorem created_once (race : EventRace) (start : EventStore) (labels : List Label) (final : World)
    (ran : (machine race).run (.initial start) labels = some final) :
    (∀ call created, final.creates call ≠ .raised ∧ final.creates call ≠ .ended none created) ∧
    (∀ call < race.creates, remaining (final.creates call) ≠ 0 → ∀ fresh : Fresh, fresh.id ∉ final.store.issued →
      ∃ label next, (machine race).step final label = some next ∧
        remaining (next.creates call) < remaining (final.creates call)) ∧
    ((∀ call < race.creates, ∃ event created, final.creates call = .ended event created) →
      ∀ call < race.creates, ∃ row created,
        OneEvent race start final (race.data call).idempotencyKey row created) := by
  have traced := traced_run ran
  refine ⟨fun call created => ⟨fun raised => ?_, fun nothing => ?_⟩, fun call inside => traced.progress inside, ?_⟩
  · have agrees := traced.agrees call
    rw [raised] at agrees
    exact agrees
  · have agrees := traced.agrees call
    rw [nothing] at agrees
    exact agrees
  · exact fun ended call inside => traced.oneEvent inside ended

/-- Two calls with one key and different offsets, and a mark of the event that comes first. -/
def duplicates : EventRace where
  creates := 2
  data call := if call = 0 then arrived else { arrived with kafkaOffset := 101 }
  fits call := by split <;> decide
  marks := 1
  target _ := 1
  kind _ := .processing

def duplicateLabels : List Label :=
  [.insert 1 freshOne, .insert 0 freshTwo, .load 0, .rollback 0, .commit 0 (january 10), .select 0, .refresh 1]

theorem duplicates_agree : ∃ final row created,
    (machine duplicates).run (.initial Table.empty) duplicateLabels = some final ∧
    OneEvent duplicates Table.empty final "key" row created := by
  have finished : ((machine duplicates).run (.initial Table.empty) duplicateLabels).any fun final =>
      (List.range 2).all fun call => remaining (final.creates call) = 0 := by decide +kernel
  obtain ⟨final, ran, finished⟩ := (Option.any_eq_true _ _).mp finished
  obtain ⟨calm, -, agreed⟩ := created_once duplicates Table.empty duplicateLabels final ran
  have ended : ∀ call < duplicates.creates, ∃ event created, final.creates call = .ended event created := by
    intro call inside
    have done := of_decide_eq_true (List.all_eq_true.mp finished call (List.mem_range.mpr inside))
    cases phase : final.creates call with
    | ended event created => exact ⟨event, created, rfl⟩
    | raised => exact absurd phase (calm call true).1
    | ready | inserted | conflicted | rolledBack => rw [phase] at done; cases done
  obtain ⟨row, created, agreement⟩ := agreed ended 1 (by decide)
  exact ⟨final, row, created, ran, agreement⟩

end EventRace

end DataPipeline.Ingestor
