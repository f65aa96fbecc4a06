import DataPipeline.Library.Execution
import DataPipeline.Ingestor.Schemas
import DataPipeline.Platform.Retry

/-! The ingestion jobs of `ingestor/jobs.py` and the tracker they share.

A job runs without an await from its call to the insert, so the check and the
mark of its key are one step. The insert is awaited, and other calls may come
in before it ends.
-/

set_option autoImplicit false

namespace DataPipeline.Ingestor

open Execution Platform

inductive Job where
  | single (request : RecordRequest) (idempotencyKey : Option String)
  | batch (requests : List RecordRequest) (idempotencyKeyPrefix : Option String)
  deriving DecidableEq

/-- Neither None nor an empty string turns deduplication on. -/
def given (key : Option String) : Option String := key.filter (· ≠ "")

def batchKey (keyPrefix : String) (requests : List RecordRequest) : String :=
  keyPrefix ++ ":" ++ toString requests.length

def Job.dedupKey : Job → Option String
  | .single _ key => given key
  | .batch requests keyPrefix => (given keyPrefix).map (batchKey · requests)

def Job.batchRequests : Job → Option (List RecordRequest)
  | .single _ _ => none
  | .batch requests _ => some requests

/-- What a job answers: the new record, None for a duplicate, or the summary of
a batch. An exception that leaves the job is its answer too. -/
inductive Answer where
  | record (request : RecordRequest)
  | skipped
  | summary (inserted errors : Nat) (firstError : Option String)
  | raised (error : String)
  | cancelled
  deriving DecidableEq

/-- The answer to a duplicate, given before anything is written. -/
def Job.duplicateAnswer : Job → Answer
  | .single _ _ => .skipped
  | .batch _ _ => .summary 0 0 (some "Batch already processed (duplicate key)")

/-- How the insert of a job ends. An empty batch does not reach the database. -/
def Job.insert (job : Job) (database : Outcome Unit String) : Outcome Unit String :=
  match job with
  | .batch [] _ => .returned ()
  | .batch (_ :: _) _ | .single _ _ => database

/-- The answer after the insert: a batch turns an exception into a summary. -/
def Job.answer (job : Job) (insert : Outcome Unit String) : Answer :=
  match job, insert with
  | .single request _, .returned _ => .record request
  | .batch requests _, .returned _ => .summary requests.length 0 none
  | .single _ _, .raised error => .raised error
  | .batch requests _, .raised error => .summary 0 requests.length (some error)
  | .single _ _, .cancelled | .batch _ _, .cancelled => .cancelled

/-- The check of the key and, unless it is a duplicate, its mark. -/
def claimKey (tracker : IdempotencyKeyTracker) (key : Option String) (checked marked : ℚ) :
    Bool × IdempotencyKeyTracker :=
  match key with
  | none => (false, tracker)
  | some key =>
    let (duplicate, tracker) := tracker.isDuplicate key checked
    if duplicate then (true, tracker) else (false, tracker.markSeen key marked)

structure Entry where
  job : Job
  checked : ℚ
  marked : ℚ
  deriving DecidableEq

inductive Progress where
  | idle
  | suppressed (entry : Entry)
  | inserting (entry : Entry)
  | ended (entry : Entry) (insert : Outcome Unit String)
  deriving DecidableEq

def Progress.claimed : Progress → Option Entry
  | .idle | .suppressed _ => none
  | .inserting entry | .ended entry _ => some entry

def Progress.entry : Progress → Option Entry
  | .idle => none
  | .suppressed entry | .inserting entry | .ended entry _ => some entry

def Progress.answer : Progress → Option Answer
  | .idle | .inserting _ => none
  | .suppressed entry => some entry.job.duplicateAnswer
  | .ended entry insert => some (entry.job.answer insert)

namespace Jobs

structure World where
  tracker : IdempotencyKeyTracker
  clock : ℚ
  calls : Nat → Progress

def World.initial (ttlSeconds clock : ℚ) : World := ⟨.empty ttlSeconds, clock, fun _ => .idle⟩

inductive Label where
  | arrive (call : Nat) (entry : Entry)
  | settle (call : Nat) (database : Outcome Unit String)
  deriving DecidableEq

def step (world : World) : Label → Option World
  | .arrive call entry =>
    if world.calls call = .idle ∧ world.clock ≤ entry.checked ∧ entry.checked ≤ entry.marked then
      -- The key is marked here, before the insert has even begun.
      let (duplicate, tracker) := claimKey world.tracker entry.job.dedupKey entry.checked entry.marked
      some { tracker, clock := if duplicate then entry.checked else entry.marked
             calls := Function.update world.calls call
               (if duplicate then .suppressed entry else .inserting entry) }
    else none
  | .settle call database =>
    match world.calls call with
    | .inserting entry =>
      -- Whatever the outcome, the mark stays in the tracker.
      some { world with calls := Function.update world.calls call (.ended entry (entry.job.insert database)) }
    | .idle | .suppressed _ | .ended _ _ => none

def machine : Machine World Label := ⟨step⟩

def Live (world : World) (key : String) (now : ℚ) : Prop :=
  ∃ marked, world.tracker.seen key = some marked ∧ now - marked ≤ world.tracker.ttlSeconds

theorem claimKey_iff {world : World} {key : Option String} {checked marked : ℚ} :
    (claimKey world.tracker key checked marked).1 = true ↔ ∃ k, key = some k ∧ Live world k checked := by
  cases key with
  | none => simp [claimKey]
  | some key =>
    have duplicate := world.tracker.isDuplicate_iff key checked
    unfold claimKey Live
    by_cases found : (world.tracker.isDuplicate key checked).1 = true
    · simpa [found] using duplicate.mp found
    · simpa [found] using mt duplicate.mpr found

@[simp] theorem claimKey_ttlSeconds (tracker : IdempotencyKeyTracker) (key : Option String)
    (checked marked : ℚ) : (claimKey tracker key checked marked).2.ttlSeconds = tracker.ttlSeconds := by
  cases key with
  | none => rfl
  | some key =>
    unfold claimKey
    by_cases duplicate : (tracker.isDuplicate key checked).1 = true <;> simp [duplicate]

theorem claimKey_seen {tracker : IdempotencyKeyTracker} {key : Option String} {checked marked : ℚ}
    (claimed : (claimKey tracker key checked marked).1 = false) (other : String) :
    (claimKey tracker key checked marked).2.seen other =
      if key = some other then some marked else tracker.seen other := by
  cases key with
  | none => simp [claimKey]
  | some key =>
    unfold claimKey at claimed ⊢
    by_cases duplicate : (tracker.isDuplicate key checked).1 = true
    · simp [duplicate] at claimed
    · by_cases same : other = key
      · simp [duplicate, same]
      · simp only [duplicate, Bool.false_eq_true, ↓reduceIte, Option.some.injEq, Ne.symm same]
        rw [IdempotencyKeyTracker.markSeen_seen_other _ _ _ same,
          IdempotencyKeyTracker.isDuplicate_seen_other _ _ _ same]

variable {before after : World}

/-- An arrival is suppressed if its key is live, which changes nothing but the
call; otherwise it marks its key and goes on to the insert. -/
theorem arrive_step {call : Nat} {entry : Entry}
    (stepped : machine.step before (.arrive call entry) = some after) :
    before.calls call = .idle ∧ before.clock ≤ entry.checked ∧ entry.checked ≤ entry.marked ∧
    ((∃ key, entry.job.dedupKey = some key ∧ Live before key entry.checked ∧ after.clock = entry.checked ∧
        after.tracker = before.tracker ∧ after.calls = Function.update before.calls call (.suppressed entry)) ∨
      ((∀ key, entry.job.dedupKey = some key → ¬ Live before key entry.checked) ∧ after.clock = entry.marked ∧
        after.tracker.ttlSeconds = before.tracker.ttlSeconds ∧
        (∀ key, after.tracker.seen key =
          if entry.job.dedupKey = some key then some entry.marked else before.tracker.seen key) ∧
        after.calls = Function.update before.calls call (.inserting entry))) := by
  simp only [machine, step] at stepped
  split at stepped
  next enabled =>
    obtain ⟨idle, order, passes⟩ := enabled
    cases stepped
    refine ⟨idle, order, passes, ?_⟩
    by_cases duplicate : (claimKey before.tracker entry.job.dedupKey entry.checked entry.marked).1 = true
    -- A live key is not removed, so the tracker is as it was.
    · obtain ⟨key, keyed, live⟩ := claimKey_iff.mp duplicate
      have kept : (before.tracker.isDuplicate key entry.checked).2 = before.tracker :=
        before.tracker.isDuplicate_kept key entry.checked ((before.tracker.isDuplicate_iff _ _).mpr live)
      have found := (before.tracker.isDuplicate_iff key entry.checked).mpr live
      refine .inl ⟨key, keyed, live, by simp [duplicate], ?_, by simp [duplicate]⟩
      simp [claimKey, keyed, found, kept]
    · refine .inr ⟨fun key keyed live => duplicate (claimKey_iff.mpr ⟨key, keyed, live⟩), by simp [duplicate],
        claimKey_ttlSeconds _ _ _ _, claimKey_seen (by simpa using duplicate), by simp [duplicate]⟩
  next => cases stepped

theorem settle_step {call : Nat} {database : Outcome Unit String}
    (stepped : machine.step before (.settle call database) = some after) :
    ∃ entry, before.calls call = .inserting entry ∧ after.tracker = before.tracker ∧
      after.clock = before.clock ∧
      after.calls = Function.update before.calls call (.ended entry (entry.job.insert database)) := by
  simp only [machine, step] at stepped
  split at stepped
  next entry running => cases stepped; exact ⟨entry, running, rfl, rfl, rfl⟩
  all_goals cases stepped

theorem entry_step {label : Label} (stepped : machine.step before label = some after) {call : Nat}
    {entry : Entry} (arrived : (after.calls call).entry = some entry) :
    (before.calls call).entry = some entry ∨ label = .arrive call entry := by
  cases label with
  | arrive other old =>
    obtain ⟨-, -, -, ⟨-, -, -, -, -, calls⟩ | ⟨-, -, -, -, calls⟩⟩ := arrive_step stepped
    all_goals
      rw [calls, Function.update_apply] at arrived
      split at arrived
      next same => cases arrived; exact .inr (by rw [same])
      next => exact .inl arrived
  | settle other database =>
    obtain ⟨old, running, -, -, calls⟩ := settle_step stepped
    rw [calls, Function.update_apply] at arrived
    split at arrived
    next same => cases arrived; exact .inl (by rw [same, running]; rfl)
    next => exact .inl arrived

/-! ## Who holds a key -/

def Claims (world : World) (call : Nat) (entry : Entry) (key : String) : Prop :=
  (world.calls call).claimed = some entry ∧ entry.job.dedupKey = some key

/-- The tracker holds, for each key, the mark of its latest claim, and a claim
is made only once every earlier one has expired. -/
structure Ordered (world : World) : Prop where
  held : ∀ key marked, world.tracker.seen key = some marked →
    ∃ call entry, Claims world call entry key ∧ entry.marked = marked
  recorded : ∀ call entry key, Claims world call entry key →
    ∃ marked, world.tracker.seen key = some marked ∧ entry.marked ≤ marked
  apart : ∀ call other entry entry' key, Claims world call entry key → Claims world other entry' key →
    call ≠ other → world.tracker.ttlSeconds < entry.checked - entry'.marked ∨
      world.tracker.ttlSeconds < entry'.checked - entry.marked
  past : ∀ call entry, (world.calls call).claimed = some entry →
    entry.checked ≤ entry.marked ∧ entry.marked ≤ world.clock

theorem ordered_initial (ttlSeconds clock : ℚ) : Ordered (.initial ttlSeconds clock) where
  held := by intro key marked seen; cases seen
  recorded := by intro call entry key claims; cases claims.1
  apart := by intro call other entry entry' key claims; cases claims.1
  past := by intro call entry claimed; cases claimed

theorem Ordered.of_same (ordered : Ordered before)
    (claimed : ∀ call, (after.calls call).claimed = (before.calls call).claimed)
    (tracker : after.tracker = before.tracker) (clock : before.clock ≤ after.clock) : Ordered after := by
  have claims : ∀ call entry key, Claims after call entry key ↔ Claims before call entry key := by
    intro call entry key
    rw [Claims, Claims, claimed]
  constructor
  · intro key marked seen
    rw [tracker] at seen
    obtain ⟨call, entry, claim, same⟩ := ordered.held key marked seen
    exact ⟨call, entry, (claims call entry key).mpr claim, same⟩
  · intro call entry key claim
    rw [tracker]
    exact ordered.recorded call entry key ((claims call entry key).mp claim)
  · intro call other entry entry' key claim claim' different
    rw [tracker]
    exact ordered.apart call other entry entry' key ((claims call entry key).mp claim)
      ((claims other entry' key).mp claim') different
  · intro call entry claim
    rw [claimed] at claim
    obtain ⟨passes, order⟩ := ordered.past call entry claim
    exact ⟨passes, order.trans clock⟩

theorem Ordered.live (ordered : Ordered before) {call : Nat} {entry : Entry} {key : String} {now : ℚ}
    (claims : Claims before call entry key) (recent : now - entry.marked ≤ before.tracker.ttlSeconds) :
    Live before key now := by
  obtain ⟨marked, seen, later⟩ := ordered.recorded call entry key claims
  exact ⟨marked, seen, by linarith⟩

theorem Ordered.unique (ordered : Ordered before) {call other : Nat} {entry entry' : Entry} {key : String}
    {now : ℚ} (claims : Claims before call entry key) (claims' : Claims before other entry' key)
    (clock : before.clock ≤ now) (recent : now - entry.marked ≤ before.tracker.ttlSeconds)
    (recent' : now - entry'.marked ≤ before.tracker.ttlSeconds) : call = other := by
  by_contra different
  obtain ⟨passes, order⟩ := ordered.past call entry claims.1
  obtain ⟨passes', order'⟩ := ordered.past other entry' claims'.1
  rcases ordered.apart call other entry entry' key claims claims' different with gap | gap
  · linarith
  · linarith

/-- The new claim is the only one the step adds. -/
theorem Ordered.claim {call : Nat} {entry : Entry} (ordered : Ordered before) (idle : before.calls call = .idle)
    (order : before.clock ≤ entry.checked) (passes : entry.checked ≤ entry.marked)
    (free : ∀ key, entry.job.dedupKey = some key → ¬ Live before key entry.checked) (clock : after.clock = entry.marked)
    (ttl : after.tracker.ttlSeconds = before.tracker.ttlSeconds)
    (seen : ∀ key, after.tracker.seen key =
      if entry.job.dedupKey = some key then some entry.marked else before.tracker.seen key)
    (calls : after.calls = Function.update before.calls call (.inserting entry)) : Ordered after := by
  have claims : ∀ {other e key}, Claims after other e key →
      (other = call ∧ e = entry ∧ entry.job.dedupKey = some key) ∨
        (other ≠ call ∧ Claims before other e key) := by
    intro other e key claim
    rw [Claims, calls, Function.update_apply] at claim
    split at claim
    next same => cases claim.1; exact .inl ⟨same, rfl, claim.2⟩
    next different => exact .inr ⟨different, claim⟩
  -- An earlier claim of the key has expired by now, since the key is not live.
  have expired : ∀ {other e key}, Claims before other e key → entry.job.dedupKey = some key →
      before.tracker.ttlSeconds < entry.checked - e.marked := by
    intro other e key claim keyed
    by_contra recent
    exact free key keyed (ordered.live claim (not_lt.mp recent))
  constructor
  · intro key marked found
    rw [seen] at found
    split at found
    next keyed =>
      cases found
      exact ⟨call, entry, ⟨by rw [calls, Function.update_self]; rfl, keyed⟩, rfl⟩
    next =>
      obtain ⟨other, e, claim, same⟩ := ordered.held key marked found
      refine ⟨other, e, ⟨?_, claim.2⟩, same⟩
      have different : other ≠ call := by
        intro same
        have claimed := claim.1
        rw [same, idle] at claimed
        cases claimed
      rw [calls, Function.update_of_ne different]
      exact claim.1
  · intro other e key claim
    rw [seen]
    rcases claims claim with ⟨-, rfl, keyed⟩ | ⟨-, claim⟩
    · exact ⟨_, if_pos keyed, le_rfl⟩
    · split
      next =>
        obtain ⟨-, old⟩ := ordered.past other e claim.1
        exact ⟨_, rfl, by linarith⟩
      next => exact ordered.recorded other e key claim
  · intro other third e e' key claim claim' different
    rw [ttl]
    rcases claims claim with ⟨rfl, rfl, keyed⟩ | ⟨-, claim⟩ <;>
      rcases claims claim' with ⟨rfl, rfl, keyed'⟩ | ⟨-, claim'⟩
    · exact absurd rfl different
    · exact .inl (expired claim' keyed)
    · exact .inr (expired claim keyed')
    · exact ordered.apart other third e e' key claim claim' different
  · intro other e claimed
    rw [clock]
    rw [calls, Function.update_apply] at claimed
    split at claimed
    next => cases claimed; exact ⟨passes, le_rfl⟩
    next =>
      obtain ⟨old, order'⟩ := ordered.past other e claimed
      exact ⟨old, by linarith⟩

theorem Ordered.step {label : Label} (ordered : Ordered before)
    (stepped : machine.step before label = some after) : Ordered after := by
  cases label with
  | settle call database =>
    obtain ⟨entry, running, tracker, clock, calls⟩ := settle_step stepped
    refine ordered.of_same (fun other => ?_) tracker clock.ge
    rw [calls, Function.update_apply]
    split
    next same => rw [same, running]; rfl
    next => rfl
  | arrive call entry =>
    obtain ⟨idle, order, passes, ⟨-, -, -, clock, tracker, calls⟩ | ⟨free, clock, ttl, seen, calls⟩⟩ :=
      arrive_step stepped
    · refine ordered.of_same (fun other => ?_) tracker (by rw [clock]; exact order)
      rw [calls, Function.update_apply]
      split
      next same => rw [same, idle]; rfl
      next => rfl
    · exact ordered.claim idle order passes free clock ttl seen calls

theorem ordered_run {ttlSeconds clock : ℚ} {labels : List Label} {final : World}
    (ran : machine.run (.initial ttlSeconds clock) labels = some final) : Ordered final :=
  Machine.invariant_of_step Ordered (ordered_initial ttlSeconds clock) (fun _ _ _ held => held.step) ran

/-! ## A key suppresses only work that was done -/

def Progress.unsuccessful : Progress → Option Entry
  | .idle | .suppressed _ | .ended _ (.returned _) => none
  | .inserting entry | .ended entry (.raised _) | .ended entry .cancelled => some entry

/-- An earlier call with the key, not older than the tracker keeps keys, has
completed its insert. -/
def DoneBefore (world : World) (key : String) (now : ℚ) : Prop :=
  ∃ call entry, world.calls call = .ended entry (.returned ()) ∧ entry.job.dedupKey = some key ∧
    now - entry.marked ≤ world.tracker.ttlSeconds

/-- An arrival is suppressed only for work that was done, and a call whose
earlier attempt failed goes on to its insert. -/
def SuppressesDoneWork (before : World) (label : Label) (after : World) : Prop :=
  ∀ call entry key, label = .arrive call entry → entry.job.dedupKey = some key →
    (after.calls call = .suppressed entry → DoneBefore before key entry.checked) ∧
    ((∃ other earlier error, before.calls other = .ended earlier (.raised error) ∧
        earlier.job.dedupKey = some key) → ¬ DoneBefore before key entry.checked →
      after.calls call = .inserting entry)

/-- An arrival does not come while an earlier call with its key, whose insert
has raised or is still running, is at most `ttl` old. -/
def FindsNoUnfinishedClaim (before : World) (label : Label) : Prop :=
  ∀ call entry key, label = .arrive call entry → entry.job.dedupKey = some key →
    ∀ other earlier, Progress.unsuccessful (before.calls other) = some earlier →
      earlier.job.dedupKey = some key → before.tracker.ttlSeconds < entry.checked - earlier.marked

theorem claimed_of_unsuccessful {progress : Progress} {entry : Entry}
    (unsuccessful : Progress.unsuccessful progress = some entry) : progress.claimed = some entry := by
  cases progress with
  | idle | suppressed => cases unsuccessful
  | inserting => exact unsuccessful
  | ended entry insert =>
    cases insert with
    | returned => cases unsuccessful
    | raised | cancelled => exact unsuccessful

theorem claimed_cases {progress : Progress} {entry : Entry} (claimed : progress.claimed = some entry) :
    progress = .ended entry (.returned ()) ∨ Progress.unsuccessful progress = some entry := by
  cases progress with
  | idle | suppressed => cases claimed
  | inserting => exact .inr claimed
  | ended other insert =>
    cases claimed
    cases insert with
    | returned => exact .inl rfl
    | raised | cancelled => exact .inr rfl

theorem arrives_suppressed_iff {call : Nat} {entry : Entry} {key : String} (keyed : entry.job.dedupKey = some key)
    (stepped : machine.step before (.arrive call entry) = some after) :
    after.calls call = .suppressed entry ↔ Live before key entry.checked := by
  obtain ⟨-, -, -, ⟨other, keyed', live, -, -, calls⟩ | ⟨free, -, -, -, calls⟩⟩ := arrive_step stepped
  · rw [keyed] at keyed'
    cases keyed'
    simp [calls, live]
  · simp [calls, free key keyed]

theorem arrives_inserting_of_not_live {call : Nat} {entry : Entry} {key : String}
    (keyed : entry.job.dedupKey = some key) (notLive : ¬ Live before key entry.checked)
    (stepped : machine.step before (.arrive call entry) = some after) :
    after.calls call = .inserting entry := by
  obtain ⟨-, -, -, ⟨other, keyed', live, -⟩ | ⟨-, -, -, -, calls⟩⟩ := arrive_step stepped
  · rw [keyed] at keyed'
    cases keyed'
    exact absurd live notLive
  · simp [calls]

/-- A live key is held by a claim that is at most `ttl` old. -/
theorem Ordered.holder (ordered : Ordered before) {key : String} {now : ℚ} (live : Live before key now) :
    ∃ call entry, Claims before call entry key ∧ now - entry.marked ≤ before.tracker.ttlSeconds := by
  obtain ⟨marked, seen, recent⟩ := live
  obtain ⟨call, entry, claims, rfl⟩ := ordered.held key marked seen
  exact ⟨call, entry, claims, recent⟩

/-- In every run, a key suppresses only work that was done exactly if no call
comes while its key is held for work that failed or is unfinished. -/
theorem suppresses_done_work_iff (ttlSeconds clock : ℚ) (labels : List Label) :
    machine.Every (.initial ttlSeconds clock) labels (fun _ => SuppressesDoneWork) ↔
      machine.Every (.initial ttlSeconds clock) labels
        (fun _ before label _ => FindsNoUnfinishedClaim before label) := by
  constructor
  · intro every
    refine every.mono ?_
    intro earlier before label after ran stepped claim call entry key same keyed other old unsuccessful keyed'
    subst same
    have ordered := ordered_run ran
    have claims : Claims before other old key := ⟨claimed_of_unsuccessful unsuccessful, keyed'⟩
    -- Otherwise the key would be live on account of the unfinished call alone.
    by_contra recent
    have recent := not_lt.mp recent
    have suppressed := (arrives_suppressed_iff keyed stepped).mpr (ordered.live claims recent)
    obtain ⟨third, done, ended, keyed'', recent'⟩ := (claim call entry key rfl keyed).1 suppressed
    obtain ⟨-, order, -⟩ := arrive_step stepped
    -- Two recent claims of one key are the same, but one is done and the other is not.
    have same := ordered.unique claims ⟨by rw [ended]; rfl, keyed''⟩ order recent recent'
    rw [same, ended] at unsuccessful
    cases unsuccessful
  · intro every
    refine every.mono ?_
    intro earlier before label after ran stepped claim call entry key same keyed
    subst same
    have ordered := ordered_run ran
    -- Whoever holds a live key has done its work, as nothing unfinished is that recent.
    have done : Live before key entry.checked → DoneBefore before key entry.checked := by
      intro live
      obtain ⟨other, old, claims, recent⟩ := ordered.holder live
      rcases claimed_cases claims.1 with ended | unsuccessful
      · exact ⟨other, old, ended, claims.2, recent⟩
      · exact absurd (claim call entry key rfl keyed other old unsuccessful claims.2) (not_lt.mpr recent)
    refine ⟨fun suppressed => done ((arrives_suppressed_iff keyed stepped).mp suppressed), fun _ undone => ?_⟩
    exact arrives_inserting_of_not_live keyed (mt done undone) stepped

/-- The insert of call 0 fails, and call 1 tries again with the same key a second later. -/
def failedThenRetried : List Label :=
  [.arrive 0 ⟨.single reading (some "k"), 0, 0⟩, .settle 0 (.raised "connection lost")]

theorem retry_after_failure_suppressed :
    ¬ machine.Every (.initial 3600 0) (failedThenRetried ++ [.arrive 1 ⟨.single reading (some "k"), 1, 1⟩])
      (fun _ => SuppressesDoneWork) := by
  intro every
  have suppressed : (machine.run (.initial 3600 0) failedThenRetried).any (fun before =>
      (machine.step before (.arrive 1 ⟨.single reading (some "k"), 1, 1⟩)).any fun after =>
        after.calls 1 = .suppressed ⟨.single reading (some "k"), 1, 1⟩) := by decide +kernel
  obtain ⟨before, ran, suppressed⟩ := (Option.any_eq_true _ _).mp suppressed
  obtain ⟨after, stepped, suppressed⟩ := (Option.any_eq_true _ _).mp suppressed
  obtain ⟨other, entry, ended, -⟩ := (every failedThenRetried _ [] before after rfl ran stepped 1 _ "k" rfl
    (by decide)).1 (of_decide_eq_true suppressed)
  -- The only call there is has failed.
  obtain ⟨first, arrived, settled⟩ := Machine.run_cons.mp ran
  obtain ⟨middle, settled, last⟩ := Machine.run_cons.mp settled
  cases last
  obtain ⟨earlier, running, -, -, calls⟩ := settle_step settled
  obtain ⟨-, -, -, ⟨-, -, -, -, -, start⟩ | ⟨-, -, -, -, start⟩⟩ := arrive_step arrived
  all_goals
    rw [start, Function.update_self] at running
    cases running
  rw [calls, start, Function.update_apply, Function.update_apply] at ended
  split at ended
  next => cases ended
  next => cases ended

/-! ## Batches that are dropped as duplicates -/

def InsertedBefore (world : World) (requests : List RecordRequest) (now : ℚ) : Prop :=
  ∃ call entry, world.calls call = .ended entry (.returned ()) ∧
    entry.job.batchRequests = some requests ∧ now - entry.marked ≤ world.tracker.ttlSeconds

/-- A batch is dropped as a duplicate only after a batch with the same requests. -/
def DropsOnlyRepeats (before : World) (label : Label) (after : World) : Prop :=
  ∀ call entry requests, label = .arrive call entry → entry.job.batchRequests = some requests →
    after.calls call = .suppressed entry → InsertedBefore before requests entry.checked

/-- Whatever holds the key within the time to live is a batch with the same
requests whose insert has ended. -/
def HeldForSame (world : World) (key : String) (requests : List RecordRequest) (now : ℚ) : Prop :=
  ∀ call entry, Claims world call entry key → now - entry.marked ≤ world.tracker.ttlSeconds →
    entry.job.batchRequests = some requests ∧ world.calls call = .ended entry (.returned ())

/-- No batch arrives while its key is held for other requests, or for an insert
that has not ended. -/
def FindsKeyHeldForSame (before : World) (label : Label) : Prop :=
  ∀ call entry requests key, label = .arrive call entry → entry.job.batchRequests = some requests →
    entry.job.dedupKey = some key → HeldForSame before key requests entry.checked

theorem Ordered.drops_only_repeats {label : Label} (ordered : Ordered before)
    (stepped : machine.step before label = some after) (same : FindsKeyHeldForSame before label) :
    DropsOnlyRepeats before label after := by
  intro call entry requests arrives batch suppressed
  subst arrives
  obtain ⟨-, -, -, ⟨key, keyed, live, -⟩ | ⟨-, -, -, -, calls⟩⟩ := arrive_step stepped
  · obtain ⟨other, earlier, claims, recent⟩ := ordered.holder live
    obtain ⟨requests', ended⟩ := same call entry requests key rfl batch keyed other earlier claims recent
    exact ⟨other, earlier, ended, requests', recent⟩
  · rw [calls, Function.update_self] at suppressed
    cases suppressed

def Direct (keyPrefix : String) : Label → Prop
  | .arrive _ entry => ∃ requests, entry.job = .batch requests (some keyPrefix)
  | .settle _ _ => True

theorem direct_entry {keyPrefix : String} {ttlSeconds clock : ℚ} {labels : List Label} {final : World}
    (direct : ∀ label ∈ labels, Direct keyPrefix label)
    (ran : machine.run (.initial ttlSeconds clock) labels = some final) {call : Nat} {entry : Entry}
    (arrived : (final.calls call).entry = some entry) :
    ∃ requests, entry.job = .batch requests (some keyPrefix) := by
  have every : machine.Every (.initial ttlSeconds clock) labels
      fun _ _ label _ => Direct keyPrefix label := by
    intro earlier label later before after split _ _
    exact direct label (by simp [split])
  refine Machine.invariant (fun world => ∀ call entry, (world.calls call).entry = some entry →
    ∃ requests, entry.job = .batch requests (some keyPrefix)) ?_ every ?_ ran call entry arrived
  · intro call entry arrived
    cases arrived
  · intro earlier before label after held direct stepped call entry arrived
    rcases entry_step stepped arrived with old | new
    · exact held call entry old
    · rw [new] at direct
      exact direct

theorem entry_of_claimed {progress : Progress} {entry : Entry} (claimed : progress.claimed = some entry) :
    progress.entry = some entry := by
  cases progress with
  | idle | suppressed => cases claimed
  | inserting | ended => exact claimed

/-- With one prefix, equal requests have equal keys, so the only batch that can
justify a drop is the one that holds the key. -/
theorem direct_drops_only_repeats_iff {keyPrefix : String} {ttlSeconds clock : ℚ} {labels : List Label}
    (direct : ∀ label ∈ labels, Direct keyPrefix label) :
    machine.Every (.initial ttlSeconds clock) labels (fun _ => DropsOnlyRepeats) ↔
      machine.Every (.initial ttlSeconds clock) labels (fun _ before label _ => FindsKeyHeldForSame before label) := by
  constructor
  · intro every earlier label later before after split ran stepped call entry requests key same batch keyed
      other old claims recent
    subst same
    have ordered := ordered_run ran
    have directEarlier : ∀ label ∈ earlier, Direct keyPrefix label :=
      fun label member => direct label (by simp [split, member])
    have suppressed := (arrives_suppressed_iff keyed stepped).mpr (ordered.live claims recent)
    obtain ⟨third, done, ended, requests', recent'⟩ :=
      every earlier _ later before after split ran stepped call entry requests rfl batch suppressed
    -- The batch that was inserted before has the same key, as it has the same length.
    have claims' : Claims before third done key := by
      obtain ⟨own, ownJob⟩ : ∃ requests, entry.job = .batch requests (some keyPrefix) :=
        direct (.arrive call entry) (by simp [split])
      have thirdArrived : (before.calls third).entry = some done := by rw [ended]; rfl
      obtain ⟨others, othersJob⟩ := direct_entry directEarlier ran thirdArrived
      rw [ownJob] at batch
      rw [othersJob] at requests'
      cases batch
      cases requests'
      exact ⟨by rw [ended]; rfl, by rw [othersJob, ← ownJob]; exact keyed⟩
    obtain ⟨-, order, -⟩ := arrive_step stepped
    have same := ordered.unique claims claims' order recent recent'
    subst same
    have sameEntry := claims.1.symm.trans claims'.1
    cases sameEntry
    exact ⟨requests', ended⟩
  · intro every
    exact every.mono fun earlier before label after ran stepped same =>
      (ordered_run ran).drops_only_repeats stepped same

end Jobs

end DataPipeline.Ingestor
