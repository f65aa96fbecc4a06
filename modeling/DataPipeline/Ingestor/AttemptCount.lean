import DataPipeline.Ingestor.EventRace
import Mathlib.Data.Finset.Card

/-! What concurrent calls of `mark_event_processing` leave of the attempts of an event.

Each call adds one to the number it has read, so the calls that commit between
its read and its own commit are lost to the count.
-/

set_option autoImplicit false

namespace DataPipeline.Ingestor

open Execution Calendar

def EventRace.IsAttempt (race : EventRace) (eventId : Int) (call : Nat) : Prop :=
  race.target call = eventId ∧ race.kind call = .processing

instance (race : EventRace) (eventId : Int) : DecidablePred (race.IsAttempt eventId) :=
  fun _ => inferInstanceAs (Decidable (_ ∧ _))

def EventRace.attempts (race : EventRace) (eventId : Int) : Nat :=
  ((Finset.range race.marks).filter (race.IsAttempt eventId)).card

namespace EventRace

variable (race : EventRace) (eventId : Int)

def isCommit : Label → Bool
  | .commit call _ => race.IsAttempt eventId call
  | _ => false

def commits (labels : List Label) : Nat := labels.countP (isCommit race eventId)

def sinceLoad (call : Nat) (labels : List Label) : Nat :=
  labels.foldl (fun count label =>
    if label = .load call then 0 else if isCommit race eventId label then count + 1 else count) 0

/-- No other attempt commits between the read of an attempt and its own commit. -/
def Undisturbed (earlier : List Label) : Label → Prop
  | .commit call _ => race.IsAttempt eventId call → sinceLoad race eventId call earlier = 0
  | _ => True

variable {race eventId} {start : EventStore} {before after : World} {call : Nat} {label : Label}
  {labels : List Label} {row : ProcessedEvent}

/-! ## What a step does to the event -/

/-- An attempt adds one to what it has read, or is refused. -/
theorem commit_step {updatedAt : DateTime} (attempt : race.IsAttempt eventId call)
    (found : before.store.find? eventId = some row)
    (stepped : (machine race).step before (.commit call updatedAt) = some after) :
    ∃ snapshot, before.marks call = .loaded snapshot ∧
      ((after = before.setMark call .raised) ∨
      (after.marks = (before.setMark call .committed).marks ∧ ∃ later, after.store.find? eventId = some later ∧
        later.processingAttempts = snapshot.processingAttempts + 1)) := by
  obtain ⟨rfl, kind⟩ := attempt
  cases transition_of_step stepped with
  | @refused _ _ snapshot _ loaded _ => exact ⟨snapshot, loaded, .inl rfl⟩
  | @committed _ _ snapshot store loaded written =>
    refine ⟨snapshot, loaded, .inr ⟨rfl, ?_⟩⟩
    rw [kind] at written
    rcases writeChanges_ok written with ⟨missing, -⟩ | ⟨current, present, rewritten⟩
    · rw [found] at missing
      cases missing
    · have named := (Table.find?_eq_some_iff.mp present).2
      refine ⟨current.write (EventMark.processing.changes snapshot) updatedAt, ?_, ?_⟩
      · exact (rewritten.find _).trans (if_pos (by simp [named]))
      · have different : snapshot.processingAttempts + 1 ≠ snapshot.processingAttempts := by omega
        rw [ProcessedEvent.processingAttempts_write]
        simp [EventMark.changes, changed, different]

theorem changes_attempts {mark : EventMark} (other : mark ≠ .processing) (loaded : ProcessedEvent) :
    (mark.changes loaded).processingAttempts = none := by
  cases mark with
  | processing => exact absurd rfl other
  | completed | failed | dlq => rfl

theorem foreign_commit {snapshot : ProcessedEvent} {updatedAt : DateTime} {store : EventStore}
    (foreign : ¬ race.IsAttempt eventId call) (found : before.store.find? eventId = some row)
    (written : writeChanges before.store (race.target call) ((race.kind call).changes snapshot) updatedAt = .ok store) :
    ∃ later, store.find? eventId = some later ∧ later.processingAttempts = row.processingAttempts := by
  rcases writeChanges_ok written with ⟨-, rfl⟩ | ⟨current, target, rewritten⟩
  · exact ⟨row, found, rfl⟩
  · have named := (Table.find?_eq_some_iff.mp target).2
    have now := rewritten.find eventId
    rw [ProcessedEvent.id_write, named] at now
    split at now
    next same =>
      have other : race.kind call ≠ .processing := fun kind => foreign ⟨same, kind⟩
      rw [same, found] at target
      cases target
      refine ⟨_, now, ?_⟩
      rw [ProcessedEvent.processingAttempts_write, changes_attempts other]
      rfl
    next => exact ⟨row, now.trans found, rfl⟩

theorem attempts_step (other : isCommit race eventId label = false) (found : before.store.find? eventId = some row)
    (stepped : (machine race).step before label = some after) :
    ∃ later, after.store.find? eventId = some later ∧ later.processingAttempts = row.processingAttempts := by
  cases transition_of_step stepped with
  | inserted inside ready new inserted =>
    obtain ⟨member, named⟩ := Table.find?_eq_some_iff.mp found
    exact ⟨row, Table.find?_eq_some_iff.mpr ⟨(Table.mem_insert? inserted).mpr (.inl member), named⟩, rfl⟩
  | @committed call _ _ _ loaded written =>
    have foreign : ¬ race.IsAttempt eventId call := by simpa [isCommit] using other
    exact foreign_commit foreign found written
  | conflicted | refreshed | vanished | rolledBack | selected => exact ⟨row, found, rfl⟩
  | loaded | missing | refused | reloaded | gone => exact ⟨row, found, rfl⟩

/-! ## Where the marks stand -/

def Label.marking : Label → Option Nat
  | .load call | .commit call _ | .reload call => some call
  | .insert _ _ | .refresh _ | .rollback _ | .select _ => none

inductive Moves (race : EventRace) (store : EventStore) : Label → MarkPhase → MarkPhase → Prop where
  | load {call : Nat} {event : ProcessedEvent} (inside : call < race.marks)
      (found : store.find? (race.target call) = some event) : Moves race store (.load call) .ready (.loaded event)
  | missing {call : Nat} (inside : call < race.marks) : Moves race store (.load call) .ready (.ended none)
  | commit {call : Nat} {updatedAt : DateTime} {snapshot : ProcessedEvent} :
      Moves race store (.commit call updatedAt) (.loaded snapshot) .committed
  | refuse {call : Nat} {updatedAt : DateTime} {snapshot : ProcessedEvent} :
      Moves race store (.commit call updatedAt) (.loaded snapshot) .raised
  | reload {call : Nat} {event : ProcessedEvent} : Moves race store (.reload call) .committed (.ended (some event))
  | gone {call : Nat} : Moves race store (.reload call) .committed .raised

theorem marks_step (stepped : (machine race).step before label = some after) :
    (label.marking = none ∧ after.marks = before.marks) ∨
    ∃ call phase, label.marking = some call ∧ Moves race before.store label (before.marks call) phase ∧
      after.marks = Function.update before.marks call phase := by
  cases transition_of_step stepped with
  | inserted | conflicted | refreshed | vanished | rolledBack | selected => exact .inl ⟨rfl, rfl⟩
  | loaded inside ready found => exact .inr ⟨_, _, rfl, by rw [ready]; exact .load inside found, rfl⟩
  | missing inside ready => exact .inr ⟨_, _, rfl, by rw [ready]; exact .missing inside, rfl⟩
  | committed loaded => exact .inr ⟨_, _, rfl, by rw [loaded]; exact .commit, rfl⟩
  | refused loaded => exact .inr ⟨_, _, rfl, by rw [loaded]; exact .refuse, rfl⟩
  | reloaded committed => exact .inr ⟨_, _, rfl, by rw [committed]; exact .reload, rfl⟩
  | gone committed => exact .inr ⟨_, _, rfl, by rw [committed]; exact .gone, rfl⟩

theorem loaded_step {snapshot : ProcessedEvent} (stepped : (machine race).step before label = some after)
    (loaded : after.marks call = .loaded snapshot) :
    (label = .load call ∧ before.store.find? (race.target call) = some snapshot) ∨
    (label.marking ≠ some call ∧ before.marks call = .loaded snapshot) := by
  rcases marks_step stepped with ⟨other, same⟩ | ⟨mover, phase, marking, moves, moved⟩
  · rw [same] at loaded
    exact .inr ⟨by rw [other]; simp, loaded⟩
  · rw [moved, Function.update_apply] at loaded
    split at loaded
    next own =>
      subst own
      subst loaded
      generalize before.marks call = phase at moves
      cases moves with
      | load inside found =>
        cases marking
        exact .inl ⟨rfl, found⟩
    next foreign =>
      refine .inr ⟨?_, loaded⟩
      rw [marking]
      exact fun same => foreign (Option.some.inj same).symm

theorem raised_step (stepped : (machine race).step before label = some after) (raised : before.marks call = .raised) :
    after.marks call = .raised := by
  rcases marks_step stepped with ⟨-, same⟩ | ⟨mover, phase, -, moves, moved⟩
  · rw [same, raised]
  · rw [moved, Function.update_apply]
    split
    next own =>
      subst own
      rw [raised] at moves
      cases moves
    next => exact raised

/-! ## Counting commits -/

theorem commits_concat (labels : List Label) (last : Label) :
    commits race eventId (labels ++ [last]) =
      commits race eventId labels + if isCommit race eventId last then 1 else 0 := by
  rw [commits, List.countP_append, List.countP_singleton]
  rfl

theorem sinceLoad_concat (call : Nat) (labels : List Label) (last : Label) :
    sinceLoad race eventId call (labels ++ [last]) =
      if last = .load call then 0
      else if isCommit race eventId last then sinceLoad race eventId call labels + 1
      else sinceLoad race eventId call labels := by
  rw [sinceLoad, List.foldl_concat]
  rfl

def MarkPhase.wrote : MarkPhase → Bool
  | .committed | .raised | .ended (some _) => true
  | .ready | .loaded _ | .ended none => false

def written (race : EventRace) (eventId : Int) (marks : Nat → MarkPhase) : Finset Nat :=
  (Finset.range race.marks).filter fun call => race.IsAttempt eventId call ∧ (marks call).wrote = true

theorem written_update_same {marks : Nat → MarkPhase} {phase : MarkPhase}
    (same : race.IsAttempt eventId call → phase.wrote = (marks call).wrote) :
    written race eventId (Function.update marks call phase) = written race eventId marks := by
  apply Finset.filter_congr
  intro other _
  apply and_congr_right
  intro attempt
  rw [Function.update_apply]
  split
  next own => rw [own] at attempt ⊢; rw [same attempt]
  next => rfl

theorem card_written_update {marks : Nat → MarkPhase} {phase : MarkPhase} (attempt : race.IsAttempt eventId call)
    (inside : call < race.marks) (unwritten : (marks call).wrote = false) (writes : phase.wrote = true) :
    (written race eventId (Function.update marks call phase)).card = (written race eventId marks).card + 1 := by
  have absent : call ∉ written race eventId marks := by simp [written, unwritten]
  rw [← Finset.card_insert_of_notMem absent]
  congr 1
  ext other
  simp only [written, Finset.mem_filter, Finset.mem_range, Finset.mem_insert, Function.update_apply]
  by_cases own : other = call
  · simp [own, inside, attempt, writes]
  · simp [own]

theorem inside_run {final : World} (ran : (machine race).run (.initial start) labels = some final) :
    ∀ call, final.marks call ≠ .ready → call < race.marks := by
  refine Machine.invariant_of_step (fun world => ∀ call, world.marks call ≠ .ready → call < race.marks)
    (fun call acted => absurd rfl acted) ?_ ran
  intro before label after inside stepped call acted
  rcases marks_step stepped with ⟨-, same⟩ | ⟨mover, phase, marking, moves, moved⟩
  · exact inside call (same ▸ acted)
  · rw [moved, Function.update_apply] at acted
    split at acted
    next own =>
      subst own
      generalize stands : before.marks call = phase at moves
      cases moves with
      | load isMark | missing isMark => cases marking; exact isMark
      | commit | refuse | reload | gone => exact inside call (by rw [stands]; simp)
    next => exact inside call acted

/-- As many attempts have committed or been refused as there are commits in the run. -/
theorem commits_eq {final : World} (ran : (machine race).run (.initial start) labels = some final) :
    commits race eventId labels = (written race eventId final.marks).card := by
  induction labels using List.reverseRecOn generalizing final with
  | nil =>
    cases ran
    simp [commits, written, World.initial, MarkPhase.wrote]
  | append_singleton labels last ih =>
    obtain ⟨middle, head, stepped⟩ := Machine.run_concat.mp ran
    rw [commits_concat, ih head]
    rcases marks_step stepped with ⟨other, same⟩ | ⟨call, phase, marking, moves, moved⟩
    · have plain : isCommit race eventId last = false := by
        cases last with
        | commit => cases other
        | insert | refresh | rollback | select | load | reload => rfl
      rw [same, plain]
      rfl
    · rw [moved]
      generalize stands : middle.marks call = before at moves
      cases moves with
      | load | missing | reload | gone =>
        cases marking
        rw [written_update_same fun _ => by rw [stands]; rfl]
        rfl
      | commit | refuse =>
        cases marking
        by_cases attempt : race.IsAttempt eventId call
        · have inside : call < race.marks := inside_run head call (by rw [stands]; simp)
          rw [card_written_update attempt inside (by rw [stands]; rfl) rfl]
          simp [isCommit, attempt]
        · rw [written_update_same fun isAttempt => absurd isAttempt attempt]
          simp [isCommit, attempt]

/-! ## What the count is -/

/-- The attempts are at most the commits, and so is what a call has read,
together with the commits since; without one since, it has read what is there. -/
structure Counted (race : EventRace) (eventId first : Int) (labels : List Label) (world : World)
    (row : ProcessedEvent) : Prop where
  found : world.store.find? eventId = some row
  most : row.processingAttempts ≤ first + commits race eventId labels
  read : ∀ call snapshot, race.IsAttempt eventId call → world.marks call = .loaded snapshot →
    snapshot.processingAttempts + sinceLoad race eventId call labels ≤ first + commits race eventId labels
  current : ∀ call snapshot, race.IsAttempt eventId call → world.marks call = .loaded snapshot →
    sinceLoad race eventId call labels = 0 → snapshot.processingAttempts = row.processingAttempts

variable {first : Int} {last : Label}

theorem Counted.pass (counted : Counted race eventId first labels before row)
    (other : isCommit race eventId last = false)
    (stepped : (machine race).step before last = some after) :
    ∃ later, Counted race eventId first (labels ++ [last]) after later ∧
      later.processingAttempts = row.processingAttempts := by
  obtain ⟨later, found, same⟩ := attempts_step other counted.found stepped
  refine ⟨later, ⟨found, ?_, ?_, ?_⟩, same⟩
  · rw [commits_concat, other, same]
    simpa using counted.most
  · intro call snapshot attempt loaded
    rw [commits_concat, sinceLoad_concat, other]
    rcases loaded_step stepped loaded with ⟨rfl, read⟩ | ⟨foreign, before⟩
    · rw [attempt.1, counted.found] at read
      cases read
      simpa using counted.most
    · have notLoad : last ≠ .load call := by rintro rfl; exact foreign rfl
      simpa [notLoad] using counted.read call snapshot attempt before
  · intro call snapshot attempt loaded since
    rw [sinceLoad_concat, other] at since
    rw [same]
    rcases loaded_step stepped loaded with ⟨rfl, read⟩ | ⟨foreign, before⟩
    · rw [attempt.1, counted.found] at read
      cases read
      rfl
    · have notLoad : last ≠ .load call := by rintro rfl; exact foreign rfl
      exact counted.current call snapshot attempt before (by simpa [notLoad] using since)

/-- A step that commits an attempt. The count is exact after it exactly if it
was exact before and no other attempt has committed since the read. -/
theorem Counted.commit {updatedAt : DateTime} (counted : Counted race eventId first labels before row)
    (attempt : race.IsAttempt eventId call)
    (stepped : (machine race).step before (.commit call updatedAt) = some after) :
    ∃ later, Counted race eventId first (labels ++ [.commit call updatedAt]) after later ∧
      (after.marks call ≠ .raised →
        (later.processingAttempts = first + commits race eventId (labels ++ [.commit call updatedAt]) ↔
          row.processingAttempts = first + commits race eventId labels ∧
            sinceLoad race eventId call labels = 0)) := by
  have isCommit : isCommit race eventId (.commit call updatedAt) = true := decide_eq_true attempt
  have more : commits race eventId (labels ++ [.commit call updatedAt]) = commits race eventId labels + 1 := by
    rw [commits_concat, isCommit]
    rfl
  obtain ⟨snapshot, loaded, outcome⟩ := commit_step attempt counted.found stepped
  have read := counted.read call snapshot attempt loaded
  -- Whoever stands at a read event by now has one more commit behind it.
  have others : ∀ other snapshot, race.IsAttempt eventId other → after.marks other = .loaded snapshot →
      snapshot.processingAttempts + sinceLoad race eventId other (labels ++ [.commit call updatedAt]) ≤
        first + commits race eventId (labels ++ [.commit call updatedAt]) ∧
      sinceLoad race eventId other (labels ++ [.commit call updatedAt]) ≠ 0 := by
    intro other snapshot isAttempt stands
    rw [more, sinceLoad_concat, isCommit]
    rcases loaded_step stepped stands with ⟨same, -⟩ | ⟨-, before⟩
    · cases same
    · have bound := counted.read other snapshot isAttempt before
      simp only [reduceCtorEq, ↓reduceIte]
      push_cast
      omega
  rcases outcome with rfl | ⟨marks, later, found, added⟩
  · refine ⟨row, ⟨counted.found, ?_, fun other snapshot isAttempt stands => (others other snapshot isAttempt stands).1,
      fun other snapshot isAttempt stands zero => absurd zero (others other snapshot isAttempt stands).2⟩, ?_⟩
    · have most := counted.most
      rw [more]
      push_cast
      omega
    · exact fun calm => absurd (by simp [World.setMark]) calm
  · refine ⟨later, ⟨found, ?_, fun other snapshot isAttempt stands => (others other snapshot isAttempt stands).1,
      fun other snapshot isAttempt stands zero => absurd zero (others other snapshot isAttempt stands).2⟩, fun _ => ?_⟩
    · rw [more, added]
      push_cast
      omega
    · rw [more, added]
      constructor
      · intro exact
        push_cast at exact
        have fresh : sinceLoad race eventId call labels = 0 := by omega
        rw [← counted.current call snapshot attempt loaded fresh]
        exact ⟨by omega, fresh⟩
      · rintro ⟨exact, fresh⟩
        rw [counted.current call snapshot attempt loaded fresh, exact]
        push_cast
        omega

/-- In every run the count is exact exactly if every attempt was undisturbed. -/
theorem counted_run {event : ProcessedEvent} {final : World} (present : event ∈ start.rows)
    (calm : ∀ call, race.IsAttempt event.id call → final.marks call ≠ .raised)
    (ran : (machine race).run (.initial start) labels = some final) :
    ∃ row, Counted race event.id event.processingAttempts labels final row ∧
      (row.processingAttempts = event.processingAttempts + commits race event.id labels ↔
        (machine race).Every (.initial start) labels fun earlier _ label _ =>
          Undisturbed race event.id earlier label) := by
  induction labels using List.reverseRecOn generalizing final with
  | nil =>
    cases ran
    have found : start.find? event.id = some event := Table.find?_of_mem present
    refine ⟨event, ⟨found, by simp [commits], ?_, ?_⟩, ?_⟩
    · intro _ _ _ loaded
      cases loaded
    · intro _ _ _ loaded
      cases loaded
    exact iff_of_true (by simp [commits]) Machine.every_nil
  | append_singleton labels last ih =>
    obtain ⟨middle, head, stepped⟩ := Machine.run_concat.mp ran
    have calmBefore : ∀ call, race.IsAttempt event.id call → middle.marks call ≠ .raised :=
      fun call attempt raised => calm call attempt (raised_step stepped raised)
    obtain ⟨row, counted, exact⟩ := ih calmBefore head
    rw [Machine.every_concat, ← exact]
    by_cases commits : isCommit race event.id last = true
    · cases last with
      | commit call updatedAt =>
        have attempt : race.IsAttempt event.id call := of_decide_eq_true commits
        obtain ⟨later, counted, exact⟩ := counted.commit attempt stepped
        refine ⟨later, counted, (exact (calm call attempt)).trans (and_congr_right fun _ => ?_)⟩
        constructor
        · intro fresh before after _ _ _
          exact fresh
        · intro undisturbed
          exact undisturbed middle final head stepped attempt
      | insert | refresh | rollback | select | load | reload => cases commits
    · have plain : isCommit race event.id last = false := by simpa using commits
      obtain ⟨later, counted, same⟩ := counted.pass plain stepped
      refine ⟨later, counted, ?_⟩
      rw [same, commits_concat, plain]
      have undisturbed : ∀ before after, (machine race).run (.initial start) labels = some before →
          (machine race).step before last = some after → Undisturbed race event.id labels last := by
        intro before after _ _
        cases last with
        | commit call updatedAt => exact fun attempt => absurd (decide_eq_true attempt) commits
        | insert | refresh | rollback | select | load | reload => trivial
      simp only [Bool.false_eq_true, ↓reduceIte, add_zero]
      exact (and_iff_left undisturbed).symm

/-- In every interleaving, whatever other calls there are: when all attempts at
an event have completed, their number has been added to its attempts exactly if
no attempt committed between the read of another and its commit. -/
theorem attempts_exact_iff (race : EventRace) (start : EventStore) (event : ProcessedEvent)
    (present : event ∈ start.rows) (labels : List Label) (final : World)
    (ran : (machine race).run (.initial start) labels = some final)
    (completed : ∀ call < race.marks, race.IsAttempt event.id call →
      ∃ later, final.marks call = .ended (some later)) :
    (∃ row, final.store.find? event.id = some row ∧
      row.processingAttempts = event.processingAttempts + race.attempts event.id) ↔
    (machine race).Every (.initial start) labels fun earlier _ label _ =>
      Undisturbed race event.id earlier label := by
  have calm : ∀ call, race.IsAttempt event.id call → final.marks call ≠ .raised := by
    intro call attempt raised
    have inside : call < race.marks := inside_run ran call (by rw [raised]; simp)
    obtain ⟨later, ended⟩ := completed call inside attempt
    rw [raised] at ended
    cases ended
  have all : commits race event.id labels = race.attempts event.id := by
    rw [commits_eq ran, EventRace.attempts]
    congr 1
    apply Finset.filter_congr
    intro call inside
    rw [and_iff_left_iff_imp]
    intro attempt
    obtain ⟨later, ended⟩ := completed call (Finset.mem_range.mp inside) attempt
    rw [ended]
    rfl
  obtain ⟨row, counted, exact⟩ := counted_run present calm ran
  rw [all] at exact
  rw [← exact, counted.found]
  simp

def oneArrived : EventStore := (Table.empty.insert? (ProcessedEvent.ofData arrived freshOne)).getD Table.empty

def twoAttempts : EventRace where
  creates := 0
  data _ := arrived
  fits _ := by decide
  marks := 2
  target _ := 1
  kind _ := .processing

def oneByOne : List Label :=
  [.load 0, .commit 0 (january 10), .reload 0, .load 1, .commit 1 (january 11), .reload 1]

def together : List Label :=
  [.load 0, .load 1, .commit 0 (january 10), .commit 1 (january 11), .reload 0, .reload 1]

def BothComplete (labels : List Label) (attempts : Int) : Bool :=
  ((machine twoAttempts).run (.initial oneArrived) labels).any fun final =>
    ((List.range 2).all fun call => match final.marks call with
      | .ended (some _) => true
      | _ => false) &&
    (final.store.find? 1).any fun row => row.processingAttempts = attempts

theorem completed_of_both {labels : List Label} {attempts : Int} (both : BothComplete labels attempts = true) :
    ∃ final, (machine twoAttempts).run (.initial oneArrived) labels = some final ∧
      (∀ call < twoAttempts.marks, twoAttempts.IsAttempt 1 call → ∃ later, final.marks call = .ended (some later)) ∧
      ∃ row, final.store.find? 1 = some row ∧ row.processingAttempts = attempts := by
  obtain ⟨final, ran, ends⟩ := (Option.any_eq_true _ _).mp both
  obtain ⟨ended, counted⟩ := (Bool.and_eq_true _ _).mp ends
  obtain ⟨row, found, counted⟩ := (Option.any_eq_true _ _).mp counted
  refine ⟨final, ran, fun call inside _ => ?_, row, found, of_decide_eq_true counted⟩
  have ended := List.all_eq_true.mp ended call (List.mem_range.mpr inside)
  split at ended
  next later phase => exact ⟨later, phase⟩
  next => cases ended

theorem one_by_one_undisturbed :
    (machine twoAttempts).Every (.initial oneArrived) oneByOne fun earlier _ label _ =>
      Undisturbed twoAttempts 1 earlier label := by
  have both : BothComplete oneByOne 2 = true := by decide +kernel
  have present : ProcessedEvent.ofData arrived freshOne ∈ oneArrived.rows := by decide +kernel
  obtain ⟨final, ran, completed, row, found, counted⟩ := completed_of_both both
  exact (attempts_exact_iff twoAttempts oneArrived _ present oneByOne final ran completed).mp
    ⟨row, found, counted⟩

/-- Two attempts that read the event before either of them commits count as one. -/
theorem attempt_lost : ¬ ∀ (race : EventRace) (start : EventStore) (event : ProcessedEvent), event ∈ start.rows →
    ∀ labels final, (machine race).run (.initial start) labels = some final →
      (∀ call < race.marks, race.IsAttempt event.id call → ∃ later, final.marks call = .ended (some later)) →
      ∃ row, final.store.find? event.id = some row ∧
        row.processingAttempts = event.processingAttempts + race.attempts event.id := by
  intro always
  have both : BothComplete together 1 = true := by decide +kernel
  have present : ProcessedEvent.ofData arrived freshOne ∈ oneArrived.rows := by decide +kernel
  obtain ⟨final, ran, completed, row, found, counted⟩ := completed_of_both both
  obtain ⟨later, foundToo, exact⟩ := always twoAttempts oneArrived _ present together final ran completed
  have same : later = row := Option.some.inj (foundToo.symm.trans found)
  have two : twoAttempts.attempts 1 = 2 := by decide +kernel
  rw [same, counted] at exact
  change (1 : Int) = 0 + (twoAttempts.attempts 1 : Nat) at exact
  rw [two] at exact
  cases exact

end EventRace

end DataPipeline.Ingestor
