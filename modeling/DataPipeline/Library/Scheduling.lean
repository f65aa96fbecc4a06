import DataPipeline.Library.Execution
import DataPipeline.Library.Table
import Mathlib.Data.Rat.Defs
import Mathlib.Order.Defs.LinearOrder

/-! A scheduler that runs jobs at the times their triggers give, as APScheduler
3.x does with its default settings.

A job whose trigger has no further time leaves the store. What is due is
submitted to an executor, which does not run a job that is too late and does
not run a job beside itself.
-/

set_option autoImplicit false

namespace Scheduling

open Execution

/-- Puts an item in the place of the one with its key, or at the end. -/
def put {Item Key : Type} [DecidableEq Key] (keyOf : Item → Key) (items : List Item) (item : Item) : List Item :=
  if keyOf item ∈ items.map keyOf then items.map (Table.replaced keyOf item) else items ++ [item]

section

variable {Item Key : Type} [DecidableEq Key] {keyOf : Item → Key}

theorem put_new {items : List Item} {item : Item} (new : keyOf item ∉ items.map keyOf) :
    put keyOf items item = items ++ [item] := if_neg new

theorem mem_put {items : List Item} {item other : Item} (member : other ∈ put keyOf items item) :
    other = item ∨ other ∈ items := by
  unfold put at member
  split at member
  next =>
    obtain ⟨old, present, rfl⟩ := List.mem_map.mp member
    unfold Table.replaced
    split
    next => exact .inl rfl
    next => exact .inr present
  next =>
    rw [List.mem_append, List.mem_singleton] at member
    exact member.symm

theorem mem_put_iff {items : List Item} {item other : Item} :
    other ∈ put keyOf items item ↔ other = item ∨ (other ∈ items ∧ keyOf other ≠ keyOf item) := by
  unfold put
  split
  next present =>
    obtain ⟨old, listed, sameKey⟩ := List.mem_map.mp present
    rw [List.mem_map]
    constructor
    · rintro ⟨previous, member, rfl⟩
      unfold Table.replaced
      split
      next => exact .inl rfl
      next different => exact .inr ⟨member, different⟩
    · rintro (rfl | ⟨member, different⟩)
      · exact ⟨old, listed, if_pos sameKey⟩
      · exact ⟨other, member, if_neg different⟩
  next new =>
    rw [List.mem_append, List.mem_singleton, or_comm]
    refine or_congr_right (iff_self_and.mpr fun member same => new ?_)
    exact same ▸ List.mem_map_of_mem member

theorem mem_foldl_put_iff {items added : List Item} {other : Item} :
    other ∈ added.foldl (put keyOf) items ↔
      (∃ before after, added = before ++ other :: after ∧ ∀ item ∈ after, keyOf item ≠ keyOf other) ∨
        (other ∈ items ∧ ∀ item ∈ added, keyOf item ≠ keyOf other) := by
  induction added generalizing items with
  | nil => simp
  | cons item added ih =>
    rw [List.foldl_cons, ih, mem_put_iff]
    constructor
    · rintro (⟨before, after, rfl, last⟩ | ⟨rfl | ⟨member, different⟩, last⟩)
      · exact .inl ⟨item :: before, after, rfl, last⟩
      · exact .inl ⟨[], added, rfl, last⟩
      · exact .inr ⟨member, List.forall_mem_cons.mpr ⟨different.symm, last⟩⟩
    · rintro (⟨before, after, split, last⟩ | ⟨member, last⟩)
      · rcases List.cons_eq_append_iff.mp split with ⟨rfl, same⟩ | ⟨front, rfl, later⟩
        · cases same
          exact .inr ⟨.inl rfl, last⟩
        · exact .inl ⟨front, after, later, last⟩
      · obtain ⟨different, others⟩ := List.forall_mem_cons.mp last
        exact .inr ⟨.inr ⟨member, different.symm⟩, others⟩

theorem nodup_put {items : List Item} (distinct : (items.map keyOf).Nodup) (item : Item) :
    ((put keyOf items item).map keyOf).Nodup := by
  unfold put
  split
  next => rwa [Table.map_idOf_replaced]
  next new =>
    apply Table.nodup_map_append distinct
    intro old present same
    exact new (List.mem_map.mpr ⟨old, present, same⟩)

theorem nodup_foldl_put {items : List Item} (distinct : (items.map keyOf).Nodup) (added : List Item) :
    ((added.foldl (put keyOf) items).map keyOf).Nodup := by
  induction added generalizing items with
  | nil => exact distinct
  | cons item added ih => exact ih (nodup_put distinct item)

theorem foldl_put_of_nodup {items added : List Item} (distinct : ((items ++ added).map keyOf).Nodup) :
    added.foldl (put keyOf) items = items ++ added := by
  induction added generalizing items with
  | nil => rw [List.foldl_nil, List.append_nil]
  | cons item added ih =>
    have new : keyOf item ∉ items.map keyOf := by
      rw [List.map_append, List.map_cons, List.nodup_append] at distinct
      intro old
      exact distinct.2.2 _ old _ List.mem_cons_self rfl
    rw [List.foldl_cons, put_new new, ih (by rwa [List.append_assoc, List.singleton_append]), List.append_assoc,
      List.singleton_append]

end

/-! ## Jobs -/

/-- `DateTrigger` fires once; what the others do is asked with `get_next_fire_time`. -/
inductive Plan (Trigger : Type) where
  | date (runDate : ℚ)
  | recurring (trigger : Trigger)
  deriving DecidableEq

structure Entry (Trigger Func : Type) where
  id : String
  func : Func
  trigger : Plan Trigger
  nextRunTime : Option ℚ
  deriving DecidableEq

structure Submission (Func : Type) where
  id : String
  func : Func
  runTime : ℚ
  deriving DecidableEq

variable {Trigger Func : Type}

/-- `get_next_fire_time` of the triggers, from the previous time and the present. -/
abbrev NextFire (Trigger : Type) := Trigger → Option ℚ → ℚ → Option ℚ

def Plan.nextFire (nextFire : NextFire Trigger) (plan : Plan Trigger) (previous : Option ℚ) (now : ℚ) : Option ℚ :=
  match plan with
  | .date runDate => if previous.isNone then some runDate else none
  | .recurring trigger => nextFire trigger previous now

/-- `add_job`, where no trigger stands for a `DateTrigger` of the present. -/
def Plan.create (trigger : Option Trigger) (now : ℚ) : Plan Trigger :=
  match trigger with
  | none => .date now
  | some trigger => .recurring trigger

/-- The last of `count` fire times after the first one, all of which have come.
None unless these are all that have come. -/
def lastDue (nextFire : Option ℚ → ℚ → Option ℚ) (now : ℚ) : Nat → ℚ → Option ℚ
  | 0, last => if (nextFire (some last) now).all (now < ·) then some last else none
  | count + 1, last =>
    match nextFire (some last) now with
    | some next => if next ≤ now then lastDue nextFire now count next else none
    | none => none

def misfireGraceTime : ℚ := 1

structure State (Trigger Func : Type) where
  clock : ℚ
  active : Bool
  jobs : List (Entry Trigger Func)
  pending : List (Submission Func)
  running : List String
  executed : List (Submission Func)

/-- `process` handles one due job of a wake-up, for which `count` more fire times
than the first have come. `execute` is the first step of a submitted run. -/
inductive Label where
  | process (id : String) (count : Nat) (now : ℚ)
  | execute (id : String) (now : ℚ)
  | finish (id : String)
  | shutdown

/-- The store after a job has been submitted. -/
def advance (jobs : List (Entry Trigger Func)) (id : String) (nextRunTime : Option ℚ) : List (Entry Trigger Func) :=
  match nextRunTime with
  | none => jobs.filter (·.id ≠ id)
  | some next => jobs.map fun entry => if entry.id = id then { entry with nextRunTime := some next } else entry

def submit (state : State Trigger Func) (submission : Submission Func) : List (Submission Func) :=
  -- Only one instance of a job runs at a time.
  if submission.id ∈ state.running ∨ submission.id ∈ state.pending.map Submission.id then state.pending
  else state.pending ++ [submission]

def step (nextFire : NextFire Trigger) (state : State Trigger Func) : Label → Option (State Trigger Func)
  | .process id count now =>
    if state.active ∧ state.clock ≤ now then do
      let entry ← state.jobs.find? (·.id = id)
      let due ← entry.nextRunTime
      if due ≤ now then
        let runTime ← lastDue (entry.trigger.nextFire nextFire) now count due
        let next := entry.trigger.nextFire nextFire (some runTime) now
        some { state with
          clock := now
          jobs := advance state.jobs id next
          pending := submit state ⟨id, entry.func, runTime⟩ }
      else none
    else none
  | .execute id now =>
    if state.clock ≤ now then do
      let submission ← state.pending.find? (·.id = id)
      let pending := state.pending.filter (·.id ≠ id)
      if now - submission.runTime ≤ misfireGraceTime then
        some { state with
          clock := now
          pending
          running := id :: state.running
          executed := submission :: state.executed }
      else some { state with clock := now, pending }
    else none
  | .finish id => if id ∈ state.running then some { state with running := state.running.erase id } else none
  | .shutdown => some { state with active := false, pending := [] }

def machine (nextFire : NextFire Trigger) : Machine (State Trigger Func) Label := ⟨step nextFire⟩

/-- `start` of a scheduler that jobs have been added to before. -/
def start (nextFire : NextFire Trigger) (added : List (String × Func × Plan Trigger)) (now : ℚ) :
    State Trigger Func where
  clock := now
  active := true
  jobs := (added.map fun (id, func, plan) => ⟨id, func, plan, plan.nextFire nextFire none now⟩).foldl (put Entry.id) []
  pending := []
  running := []
  executed := []

variable {nextFire : NextFire Trigger} {before after : State Trigger Func} {label : Label} {id : String}

/-! ## The store -/

theorem nodup_advance {jobs : List (Entry Trigger Func)} (distinct : (jobs.map Entry.id).Nodup)
    (nextRunTime : Option ℚ) : ((advance jobs id nextRunTime).map Entry.id).Nodup := by
  cases nextRunTime with
  | none => exact (List.filter_sublist.map Entry.id).nodup distinct
  | some next =>
    have same : (advance jobs id (some next)).map Entry.id = jobs.map Entry.id := by
      rw [advance, List.map_map]
      apply List.map_congr_left
      intro entry _
      rw [Function.comp_apply]
      split <;> rfl
    rwa [same]

theorem jobs_of_step (stepped : (machine nextFire).step before label = some after) :
    after.jobs = before.jobs ∨ ∃ id nextRunTime, after.jobs = advance before.jobs id nextRunTime := by
  cases label with
  | process id count now =>
    obtain ⟨_, processed⟩ := Option.ite_none_right_eq_some.mp stepped
    simp only [Option.bind_eq_bind, Option.bind_eq_some_iff, Option.ite_none_right_eq_some] at processed
    obtain ⟨entry, _, due, _, _, runTime, _, same⟩ := processed
    cases same
    exact .inr ⟨id, _, rfl⟩
  | execute id now =>
    obtain ⟨_, executed⟩ := Option.ite_none_right_eq_some.mp stepped
    obtain ⟨submission, _, ends⟩ := Option.bind_eq_some_iff.mp executed
    split at ends
    next => cases ends; exact .inl rfl
    next => cases ends; exact .inl rfl
  | finish id =>
    obtain ⟨_, same⟩ := Option.ite_none_right_eq_some.mp stepped
    cases same
    exact .inl rfl
  | shutdown => cases stepped; exact .inl rfl

theorem nodup_of_step (distinct : (before.jobs.map Entry.id).Nodup)
    (stepped : (machine nextFire).step before label = some after) : (after.jobs.map Entry.id).Nodup := by
  rcases jobs_of_step stepped with same | ⟨id, nextRunTime, same⟩
  · rwa [same]
  · rw [same]
    exact nodup_advance distinct nextRunTime

theorem nodup_start (added : List (String × Func × Plan Trigger)) (now : ℚ) :
    ((start nextFire added now).jobs.map Entry.id).Nodup := by
  apply nodup_foldl_put
  exact List.nodup_nil

theorem filter_id_le_one {added : List (String × Func × Plan Trigger)} {now : ℚ} {labels : List Label}
    {final : State Trigger Func} (ran : (machine nextFire).run (start nextFire added now) labels = some final)
    (id : String) : (final.jobs.filter (·.id = id)).length ≤ 1 := by
  have distinct := Machine.invariant_of_step (fun state => (state.jobs.map Entry.id).Nodup) (nodup_start added now)
    (fun _ _ _ => nodup_of_step) ran
  cases found : final.jobs.filter (·.id = id) with
  | nil => exact Nat.zero_le 1
  | cons entry rest =>
    obtain ⟨member, same⟩ := List.mem_filter.mp (found ▸ List.mem_cons_self : entry ∈ final.jobs.filter (·.id = id))
    have only := Table.filter_field distinct member
    rw [of_decide_eq_true same, found] at only
    rw [only, List.length_singleton]

theorem jobs_start {added : List (String × Func × Plan Trigger)} (distinct : (added.map Prod.fst).Nodup) (now : ℚ) :
    (start nextFire added now).jobs =
      added.map fun (id, func, plan) => ⟨id, func, plan, plan.nextFire nextFire none now⟩ := by
  rw [start, foldl_put_of_nodup, List.nil_append]
  rw [List.nil_append, List.map_map]
  exact distinct

/-! ## One immediate run -/

theorem lastDue_date (runDate now : ℚ) :
    lastDue ((Plan.date runDate : Plan Trigger).nextFire nextFire) now 0 runDate = some runDate := by
  simp [lastDue, Plan.nextFire]

/-- A job with a `DateTrigger` is run at the first wake-up, if that is not too late. -/
theorem date_executed {entry : Entry Trigger Func} {runDate : ℚ} (active : before.active = true)
    (idle : before.pending = [] ∧ before.running = []) (found : before.jobs.find? (·.id = id) = some entry)
    (trigger : entry.trigger = .date runDate) (due : entry.nextRunTime = some runDate) (past : runDate ≤ before.clock)
    (early : before.clock - runDate ≤ misfireGraceTime) :
    ∃ final, (machine nextFire).run before [.process id 0 before.clock, .execute id before.clock] = some final ∧
      ∃ submission ∈ final.executed, submission.id = id := by
  obtain ⟨pending, running⟩ := idle
  let submission : Submission Func := ⟨id, entry.func, runDate⟩
  let middle := { before with jobs := advance before.jobs id none, pending := [submission] }
  let final := { middle with pending := [], running := id :: before.running, executed := submission :: before.executed }
  have processed : (machine nextFire).step before (.process id 0 before.clock) = some middle := by
    simp [machine, step, active, found, due, past, trigger, lastDue_date, submit, pending, running, Plan.nextFire,
      middle, submission]
  have executed : (machine nextFire).step middle (.execute id before.clock) = some final := by
    have alone : [submission].find? (fun waiting => waiting.id = id) = some submission := by simp [submission]
    have noneLeft : [submission].filter (fun waiting => waiting.id ≠ id) = [] := by simp [submission]
    simp only [machine, step, middle, alone, noneLeft, Option.bind_eq_bind, Option.bind_some]
    exact (if_pos Rat.le_refl).trans (if_pos early)
  refine ⟨final, Machine.run_cons.mpr ⟨middle, processed, ?_⟩, submission, List.mem_cons_self, rfl⟩
  exact Machine.run_cons.mpr ⟨final, executed, Machine.run_nil final⟩

end Scheduling
