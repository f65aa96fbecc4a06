import DataPipeline.Ingestor.RecordRace

/-! The time at which a record was first processed, under overlapping `mark_processed` calls.

The call sets `processed_at` only if the row that it has loaded has none, which
the row may have got since.
-/

set_option autoImplicit false

namespace DataPipeline.Ingestor.RecordRace

open Calendar Execution

def noteProcessed (times : List DateTime) (before : World) (label : Label) (after : World) : List DateTime :=
  match before.calls label.call, after.calls label.call with
  | .loaded old now _, .committed => if old.processedAt = none then times ++ [now] else times
  | _, _ => times

def processedTimes (recordId : Int) (store : Store) (labels : List Label) : List DateTime :=
  (machine .markProcessed recordId).observe noteProcessed [] (.initial store) labels

def ReadsProcessed (store : Store) (recordId : Int) (time : DateTime) : Prop :=
  ∃ row, store.find? recordId = some row ∧ row.processedAt = some time

/-- Once a call has committed a time, every read of the record gives this time. -/
def FirstTimeKept (recordId : Int) (store : Store) (labels : List Label) : Prop :=
  ∀ earlier later world, labels = earlier ++ later →
    (machine .markProcessed recordId).run (.initial store) earlier = some world →
    ∀ time ∈ processedTimes recordId store earlier, ReadsProcessed world.store recordId time

/-- A commit that sets `processed_at` finds none in the row, or its own time. -/
def SetsFirst (recordId : Int) (before : World) (label : Label) : Prop :=
  ∀ old now updatedAt row, label.act = .commit → before.calls label.call = .loaded old now updatedAt →
    old.processedAt = none → before.store.find? recordId = some row →
    row.processedAt = none ∨ row.processedAt = some now

variable {recordId : Int} {before after : World} {label : Label} {store : Store} {times : List DateTime}

def SeenSince (recordId : Int) (world : World) (times : List DateTime) : Prop :=
  ∀ call old now updatedAt row time, world.calls call = .loaded old now updatedAt → old.processedAt = none →
    world.store.find? recordId = some row → row.processedAt = some time → time ∈ times

theorem noteProcessed_cases (stepped : (machine .markProcessed recordId).step before label = some after) :
    (after.store = before.store ∧ noteProcessed times before label after = times) ∨
    ∃ old now updatedAt row, label.act = .commit ∧ before.calls label.call = .loaded old now updatedAt ∧
      before.store.find? recordId = some row ∧
      after.store.find? recordId = some (CacheRace.markColumns old row now updatedAt) ∧
      noteProcessed times before label after = if old.processedAt = none then times ++ [now] else times := by
  cases transition_of_step stepped with
  | refused call now updatedAt idle => exact .inl ⟨rfl, by simp [noteProcessed, idle]⟩
  | loaded call now updatedAt old idle => exact .inl ⟨rfl, by simp [noteProcessed, idle]⟩
  | unchanged call old now updatedAt loaded same =>
    -- There is nothing to change because the row has a time.
    have processed : old.processedAt ≠ none := by
      intro unprocessed
      have time := congrArg Record.processedAt same
      simp [Change.markProcessed, unprocessed] at time
    exact .inl ⟨rfl, by simp [noteProcessed, loaded, World.set_self, processed]⟩
  | written call old row now updatedAt later loaded different found writes =>
    exact .inr ⟨old, now, updatedAt, row, rfl, loaded, found, writes, by simp [noteProcessed, loaded, World.set_self]⟩
  | refreshed call record committed => exact .inl ⟨rfl, by simp [noteProcessed, committed]⟩
  | gone call act => exact .inl ⟨rfl, by simp [noteProcessed, World.set_self]⟩

theorem markColumns_processedAt (old row : Record) (now updatedAt : DateTime) :
    (CacheRace.markColumns old row now updatedAt).processedAt =
      if old.processedAt = none then some now else row.processedAt := rfl

theorem sets_of_commit {old row : Record} {now updatedAt : DateTime}
    (stepped : (machine .markProcessed recordId).step before label = some after) (commits : label.act = .commit)
    (loaded : before.calls label.call = .loaded old now updatedAt) (unprocessed : old.processedAt = none)
    (found : before.store.find? recordId = some row) :
    after.store.find? recordId = some (CacheRace.markColumns old row now updatedAt) ∧
      noteProcessed times before label after = times ++ [now] := by
  cases transition_of_step stepped with
  | refused call _ _ idle | loaded call _ _ _ idle => cases commits
  | unchanged call old' now' updatedAt' loaded' same =>
    cases loaded.symm.trans loaded'
    have time := congrArg Record.processedAt same
    simp [Change.markProcessed, unprocessed] at time
  | written call old' row' now' updatedAt' later loaded' different found' writes =>
    cases loaded.symm.trans loaded'
    cases found.symm.trans found'
    exact ⟨writes, by simp [noteProcessed, loaded', World.set_self, unprocessed]⟩
  | refreshed call record committed => cases commits
  | gone call act missing => cases missing.symm.trans found

theorem seenSince_step (seen : SeenSince recordId before times)
    (stepped : (machine .markProcessed recordId).step before label = some after) :
    SeenSince recordId after (noteProcessed times before label after) := by
  intro call old now updatedAt row time loaded unprocessed found has
  rcases loaded_before stepped loaded with was | ⟨fresh, same⟩
  · rcases noteProcessed_cases stepped with ⟨same, noted⟩ | ⟨other, writes, _, row', -, -, found', after', noted⟩
    · rw [noted]
      rw [same] at found
      exact seen call old now updatedAt row time was unprocessed found has
    · cases found.symm.trans after'
      rw [markColumns_processedAt] at has
      rw [noted]
      split at has
      next sets =>
        cases has
        rw [if_pos sets]
        exact List.mem_append_right _ (List.mem_singleton_self _)
      next leaves =>
        rw [if_neg leaves]
        exact seen call old now updatedAt row' time was unprocessed found' has
  · rw [same] at found
    cases fresh.symm.trans found
    cases unprocessed.symm.trans has

/-- Commits that set the time first leave the committed times as they are read. -/
theorem reads_step (reads : ∀ time ∈ times, ReadsProcessed before.store recordId time)
    (first : SetsFirst recordId before label)
    (stepped : (machine .markProcessed recordId).step before label = some after) :
    ∀ time ∈ noteProcessed times before label after, ReadsProcessed after.store recordId time := by
  intro time noted
  rcases noteProcessed_cases stepped with ⟨same, kept⟩ | ⟨old, now, updatedAt, row, commits, loaded, found, writes, adds⟩
  · rw [kept] at noted
    rw [same]
    exact reads time noted
  · refine ⟨_, writes, ?_⟩
    rw [markColumns_processedAt]
    rw [adds] at noted
    split at noted
    next unprocessed =>
      rw [if_pos unprocessed]
      rcases List.mem_append.mp noted with older | newest
      · -- The row has a time that was committed before, and it is this call's own.
        obtain ⟨present, foundToo, has⟩ := reads time older
        cases found.symm.trans foundToo
        rcases first old now updatedAt row commits loaded unprocessed found with none | own
        · cases none.symm.trans has
        · exact own.symm.trans has
      · rw [List.mem_singleton.mp newest]
    next processed =>
      rw [if_neg processed]
      obtain ⟨present, foundToo, has⟩ := reads time noted
      cases found.symm.trans foundToo
      exact has

/-- In every interleaving of `mark_processed` calls the first time that is
committed is kept exactly if each commit that sets a time is the first to do so,
or sets the time that the row has. -/
theorem first_time_kept_iff (recordId : Int) (store : Store) (labels : List Label) :
    FirstTimeKept recordId store labels ↔
      (machine .markProcessed recordId).Every (.initial store) labels
        fun _ before label _ => SetsFirst recordId before label := by
  constructor
  · intro kept earlier label later before after split ran stepped old now updatedAt row commits loaded unprocessed found
    have seen : SeenSince recordId before (processedTimes recordId store earlier) :=
      Machine.observed_of_step (SeenSince recordId) (fun _ _ _ _ _ _ present => by cases present)
        (fun _ _ _ _ seen stepped => seenSince_step seen stepped) ran
    cases has : row.processedAt with
    | none => exact .inl rfl
    | some time =>
      have noted := seen label.call old now updatedAt row time loaded unprocessed found has
      have after' := kept (earlier ++ [label]) later after (by rw [split, List.append_assoc]; rfl)
        (Machine.run_concat.mpr ⟨before, ran, stepped⟩) time
      rw [processedTimes, Machine.observe_concat ran stepped] at after'
      obtain ⟨writes, adds⟩ := sets_of_commit stepped commits loaded unprocessed found
      obtain ⟨present, foundNow, reads⟩ := after' (by
        rw [adds]
        exact List.mem_append_left _ noted)
      cases writes.symm.trans foundNow
      rw [markColumns_processedAt, if_pos unprocessed] at reads
      exact .inr reads.symm
  · intro every earlier later world split ran
    subst split
    exact Machine.invariant_observed (fun world times => ∀ time ∈ times, ReadsProcessed world.store recordId time)
      (fun _ member => absurd member List.not_mem_nil) every.of_append
      (fun _ _ _ _ reads first stepped => reads_step reads first stepped) ran

/-- The time that the first of two calls has committed is overwritten by the other. -/
theorem first_time_lost :
    ((oneRecord.find? 1).any fun row => row.Active) ∧ ¬ FirstTimeKept 1 oneRecord together := by
  refine ⟨by decide +kernel, fun kept => ?_⟩
  have overwritten : ((machine .markProcessed 1).run (.initial oneRecord) together).any fun world =>
      (world.store.find? 1).any fun row => row.processedAt = some (january 11) := by decide +kernel
  have committed : january 10 ∈ processedTimes 1 oneRecord together := by decide +kernel
  obtain ⟨world, ran, overwritten⟩ := (Option.any_eq_true _ _).mp overwritten
  obtain ⟨row, found, later⟩ := (Option.any_eq_true _ _).mp overwritten
  obtain ⟨same, foundToo, first⟩ := kept together [] world (by simp) ran (january 10) committed
  cases found.symm.trans foundToo
  rw [of_decide_eq_true later] at first
  exact absurd first (by decide)

end DataPipeline.Ingestor.RecordRace
