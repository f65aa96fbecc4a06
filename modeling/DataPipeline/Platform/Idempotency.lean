import DataPipeline.Library.Expiring
import DataPipeline.Platform.Retry

/-! What an `IdempotencyKeyTracker` answers after any calls, while the clock does not run backwards.

Expired keys are removed when they are asked for and when somebody cleans up. The
tracker answers like a store in which every mark expires by itself.
-/

set_option autoImplicit false

namespace DataPipeline.Platform.IdempotencyKeyTracker

open Execution

inductive Call where
  | isDuplicate (key : String)
  | markSeen (key : String)
  | cleanupExpired
  deriving DecidableEq

structure Label where
  call : Call
  now : ℚ

structure World where
  tracker : IdempotencyKeyTracker
  clock : ℚ

def World.initial (ttlSeconds clock : ℚ) : World := ⟨.empty ttlSeconds, clock⟩

def Call.run (tracker : IdempotencyKeyTracker) (now : ℚ) : Call → IdempotencyKeyTracker
  | .isDuplicate key => (tracker.isDuplicate key now).2
  | .markSeen key => tracker.markSeen key now
  | .cleanupExpired => tracker.cleanupExpired now

def machine : Machine World Label where
  step world label :=
    if world.clock ≤ label.now then some ⟨label.call.run world.tracker label.now, label.now⟩ else none

def Label.marks (key : String) (label : Label) : Option ℚ :=
  if label.call = .markSeen key then some label.now else none

def lastMark (labels : List Label) (key : String) : Option ℚ := labels.reverse.findSome? (Label.marks key)

def marked (ttlSeconds : ℚ) (labels : List Label) : Expiring String Unit ℚ :=
  labels.foldl (fun store label => match label.call with
    | .markSeen key => store.setex key (label.now + ttlSeconds) ()
    | .isDuplicate _ | .cleanupExpired => store) .empty

/-! ## What a call leaves -/

variable {tracker : IdempotencyKeyTracker} {key other : String} {now later : ℚ} {labels : List Label} {label : Label}
  {before after : World}

/-- Both ways of removing keys keep the marks that have not expired. -/
theorem seen_isDuplicate : (tracker.isDuplicate key now).2.seen other =
    if other = key then (tracker.seen key).filter fun marked => ¬ tracker.ttlSeconds < now - marked
    else tracker.seen other := by
  unfold isDuplicate
  by_cases same : other = key
  · rw [if_pos same, same]
    cases found : tracker.seen key with
    | none => simp only [found, Option.filter_none]
    | some marked =>
      by_cases expired : tracker.ttlSeconds < now - marked
      · simp only [expired, if_true, Function.update_self, Option.filter_some, not_true, decide_false,
          Bool.false_eq_true, if_false]
      · simp only [expired, if_false, found, Option.filter_some, not_false_eq_true, decide_true, if_true]
  · rw [if_neg same]
    cases tracker.seen key with
    | none => rfl
    | some marked => by_cases expired : tracker.ttlSeconds < now - marked <;> simp [expired, same]

theorem live_filter {time : Option ℚ} (order : now ≤ later) :
    (∃ marked, (time.filter fun marked => ¬ tracker.ttlSeconds < now - marked) = some marked ∧
      later - marked ≤ tracker.ttlSeconds) ↔ ∃ marked, time = some marked ∧ later - marked ≤ tracker.ttlSeconds := by
  constructor
  · rintro ⟨marked, kept, live⟩
    exact ⟨marked, (Option.filter_eq_some_iff.mp kept).1, live⟩
  · rintro ⟨marked, rfl, live⟩
    have fresh : ¬ tracker.ttlSeconds < now - marked := by linarith
    exact ⟨marked, Option.filter_eq_some_iff.mpr ⟨rfl, decide_eq_true fresh⟩, live⟩

theorem isDuplicate_after_isDuplicate (order : now ≤ later) :
    ((tracker.isDuplicate key now).2.isDuplicate other later).1 = true ↔
      (tracker.isDuplicate other later).1 = true := by
  rw [isDuplicate_iff, isDuplicate_iff, isDuplicate_ttlSeconds, seen_isDuplicate]
  split
  next same =>
    rw [same]
    exact live_filter order
  next => rfl

theorem isDuplicate_after_cleanupExpired (order : now ≤ later) :
    ((tracker.cleanupExpired now).isDuplicate other later).1 = true ↔
      (tracker.isDuplicate other later).1 = true := by
  rw [isDuplicate_iff, isDuplicate_iff]
  exact live_filter order

theorem isDuplicate_after_markSeen : ((tracker.markSeen key now).isDuplicate other later).1 = true ↔
    if other = key then later ≤ now + tracker.ttlSeconds else (tracker.isDuplicate other later).1 = true := by
  rw [isDuplicate_iff, markSeen_ttlSeconds]
  split
  next same =>
    rw [same, markSeen_seen]
    simp only [Option.some.injEq, exists_eq_left', sub_le_iff_le_add']
  next different => rw [markSeen_seen_other tracker key now different, isDuplicate_iff]

/-! ## Runs -/

theorem machine_step : machine.step before label = some after ↔
    before.clock ≤ label.now ∧ after = ⟨label.call.run before.tracker label.now, label.now⟩ := by
  rw [machine, Option.ite_none_right_eq_some, Option.some.injEq, eq_comm (a := after)]

theorem marked_concat (ttlSeconds : ℚ) (labels : List Label) (label : Label) :
    marked ttlSeconds (labels ++ [label]) = match label.call with
      | .markSeen key => (marked ttlSeconds labels).setex key (label.now + ttlSeconds) ()
      | .isDuplicate _ | .cleanupExpired => marked ttlSeconds labels := by
  rw [marked, List.foldl_append]
  rfl

theorem lastMark_concat (labels : List Label) (label : Label) (key : String) :
    lastMark (labels ++ [label]) key = (label.marks key).or (lastMark labels key) := by
  rw [lastMark, List.reverse_append, List.reverse_singleton, List.singleton_append, List.findSome?_cons]
  cases label.marks key <;> rfl

structure Agrees (ttlSeconds : ℚ) (labels : List Label) (world : World) : Prop where
  ttl : world.tracker.ttlSeconds = ttlSeconds
  answers : ∀ key now, world.clock ≤ now →
    ((world.tracker.isDuplicate key now).1 = true ↔ ((marked ttlSeconds labels).get now key).isSome = true)

theorem Agrees.step {ttlSeconds : ℚ} (agrees : Agrees ttlSeconds labels before)
    (stepped : machine.step before label = some after) : Agrees ttlSeconds (labels ++ [label]) after := by
  obtain ⟨order, rfl⟩ := machine_step.mp stepped
  obtain ⟨call, now⟩ := label
  cases call with
  | isDuplicate asked =>
    refine ⟨(isDuplicate_ttlSeconds ..).trans agrees.ttl, fun key later since => ?_⟩
    rw [marked_concat, ← agrees.answers key later (order.trans since)]
    exact isDuplicate_after_isDuplicate since
  | cleanupExpired =>
    refine ⟨agrees.ttl, fun key later since => ?_⟩
    rw [marked_concat, ← agrees.answers key later (order.trans since)]
    exact isDuplicate_after_cleanupExpired since
  | markSeen seen =>
    refine ⟨agrees.ttl, fun key later since => ?_⟩
    rw [marked_concat, Expiring.get_setex]
    simp only [Call.run]
    rw [isDuplicate_after_markSeen, agrees.ttl]
    split
    next => split <;> simp_all
    next => exact agrees.answers key later (order.trans since)

theorem agrees_run {ttlSeconds clock : ℚ} {world : World}
    (ran : machine.run (.initial ttlSeconds clock) labels = some world) : Agrees ttlSeconds labels world := by
  induction labels using List.reverseRecOn generalizing world with
  | nil =>
    cases ran
    exact ⟨rfl, fun key now _ => by rw [isDuplicate_iff]; simp [World.initial, empty, marked]⟩
  | append_singleton labels last ih =>
    obtain ⟨middle, head, stepped⟩ := Machine.run_concat.mp ran
    exact (ih head).step stepped

/-- The store holds a key exactly as long as its most recent mark allows. -/
theorem get_marked (ttlSeconds : ℚ) (labels : List Label) (key : String) (now : ℚ) :
    ((marked ttlSeconds labels).get now key).isSome = true ↔
      ∃ time, lastMark labels key = some time ∧ now - time ≤ ttlSeconds := by
  induction labels using List.reverseRecOn with
  | nil => simp [marked, lastMark]
  | append_singleton labels last ih =>
    rw [marked_concat, lastMark_concat, Label.marks]
    cases called : last.call with
    | isDuplicate asked => simpa using ih
    | cleanupExpired => simpa using ih
    | markSeen seen =>
      simp only [Expiring.get_setex, Call.markSeen.injEq]
      by_cases same : key = seen
      · rw [if_pos same, if_pos same.symm, Option.some_or]
        by_cases live : now ≤ last.now + ttlSeconds
        · simp only [if_pos live, Option.isSome_some, Option.some.injEq, exists_eq_left', true_iff]
          linarith
        · simp only [if_neg live, Option.isSome_none, Bool.false_eq_true, Option.some.injEq, exists_eq_left', false_iff]
          linarith
      · rw [if_neg same, if_neg (Ne.symm same), Option.none_or]
        exact ih

theorem run_of_earlier {other : World} (ran : machine.run before labels = some after)
    (order : other.clock ≤ before.clock) :
    ∃ reached, machine.run other labels = some reached ∧ reached.clock ≤ after.clock := by
  induction labels generalizing before other with
  | nil =>
    cases ran
    exact ⟨other, rfl, order⟩
  | cons label labels ih =>
    obtain ⟨next, stepped, rest⟩ := Machine.run_cons.mp ran
    obtain ⟨ready, rfl⟩ := machine_step.mp stepped
    have taken : machine.step other label = some ⟨label.call.run other.tracker label.now, label.now⟩ :=
      machine_step.mpr ⟨order.trans ready, rfl⟩
    have level : (⟨label.call.run other.tracker label.now, label.now⟩ : World).clock ≤ label.now := le_rfl
    obtain ⟨reached, goes, bound⟩ := ih rest level
    exact ⟨reached, Machine.run_cons.mpr ⟨_, taken, goes⟩, bound⟩

theorem lastMark_skip {earlier later : List Label} {extra : Label} (silent : ∀ key, extra.call ≠ .markSeen key)
    (key : String) : lastMark (earlier ++ extra :: later) key = lastMark (earlier ++ later) key := by
  induction later using List.reverseRecOn with
  | nil => rw [lastMark_concat, Label.marks, if_neg (silent key), Option.none_or, List.append_nil]
  | append_singleton later last ih =>
    rw [← List.cons_append, ← List.append_assoc, ← List.append_assoc, lastMark_concat, lastMark_concat, ih]

/-- After any calls a key is a duplicate exactly if its most recent mark is not too
old, and without a call that marks nothing every answer would be the same. -/
theorem tracker_semantics (ttlSeconds clock : ℚ) (labels : List Label) (world : World)
    (ran : machine.run (.initial ttlSeconds clock) labels = some world) :
    (∀ key now, world.clock ≤ now → ((world.tracker.isDuplicate key now).1 = true ↔
      ∃ time, lastMark labels key = some time ∧ now - time ≤ ttlSeconds)) ∧
    ∀ earlier extra later, labels = earlier ++ extra :: later → (∀ key, extra.call ≠ .markSeen key) →
      ∃ reached, machine.run (.initial ttlSeconds clock) (earlier ++ later) = some reached ∧
        ∀ key now, world.clock ≤ now →
          (reached.tracker.isDuplicate key now).1 = (world.tracker.isDuplicate key now).1 := by
  have answers {labels : List Label} {world : World} (ran : machine.run (.initial ttlSeconds clock) labels = some world)
      (key : String) (now : ℚ) (order : world.clock ≤ now) : (world.tracker.isDuplicate key now).1 = true ↔
        ∃ time, lastMark labels key = some time ∧ now - time ≤ ttlSeconds :=
    ((agrees_run ran).answers key now order).trans (get_marked ttlSeconds labels key now)
  refine ⟨answers ran, ?_⟩
  rintro earlier extra later rfl silent
  obtain ⟨middle, head, tail⟩ := Machine.run_append.mp ran
  obtain ⟨next, stepped, rest⟩ := Machine.run_cons.mp tail
  obtain ⟨order, rfl⟩ := machine_step.mp stepped
  obtain ⟨reached, goes, bound⟩ := run_of_earlier rest order
  have removed : machine.run (.initial ttlSeconds clock) (earlier ++ later) = some reached :=
    Machine.run_append.mpr ⟨middle, head, goes⟩
  refine ⟨reached, removed, fun key now since => ?_⟩
  rw [Bool.eq_iff_iff, answers removed key now (bound.trans since), answers ran key now since,
    lastMark_skip silent key]

/-- A mark of an hour is still there after exactly one hour, though a clean-up comes first. -/
theorem one_hour_duplicate :
    ∃ world, machine.run (.initial 3600 0) [⟨.markSeen "a", 0⟩, ⟨.cleanupExpired, 3600⟩] = some world ∧
      (world.tracker.isDuplicate "a" 3600).1 = true ∧ (world.tracker.isDuplicate "a" 3601).1 = false := by
  have ran : machine.run (.initial 3600 0) [⟨.markSeen "a", 0⟩, ⟨.cleanupExpired, 3600⟩] =
      some ⟨((IdempotencyKeyTracker.empty 3600).markSeen "a" 0).cleanupExpired 3600, 3600⟩ := by
    refine Machine.run_cons.mpr ⟨_, machine_step.mpr ⟨le_rfl, rfl⟩, ?_⟩
    refine Machine.run_cons.mpr ⟨_, machine_step.mpr ⟨?_, rfl⟩, rfl⟩
    norm_num
  have answers := (tracker_semantics 3600 0 _ _ ran).1 "a"
  refine ⟨_, ran, (answers 3600 le_rfl).mpr ⟨0, rfl, by norm_num⟩, ?_⟩
  rw [← Bool.not_eq_true, answers 3601 (by norm_num)]
  rintro ⟨time, last, live⟩
  have same : time = 0 := (Option.some.inj last).symm
  norm_num [same] at live

end DataPipeline.Platform.IdempotencyKeyTracker
