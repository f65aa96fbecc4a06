import DataPipeline.Ingestor.RecordRace

/-! Overlapping `PATCH /records/{id}/archive` requests for one record.

A request that has loaded the row while it was active archives it, also when
another request has done so in the meantime.
-/

set_option autoImplicit false

namespace DataPipeline.Ingestor.RecordRace

open Calendar Execution Records

def archiveAnswer : Phase → Option Response
  | .returned (some record) => some (.ok (.modelValidate record))
  | .returned none => some alreadyArchived
  | .raised => some .internalServerError
  | .idle | .loaded _ _ _ | .committed => none

def World.Answered (world : World) : Prop :=
  ∀ call, world.calls call = .idle ∨ (archiveAnswer (world.calls call)).isSome = true

/-- Of the requests that were made one succeeds and all others answer 404. -/
def OneArchives (world : World) : Prop :=
  (∃ call, world.calls call ≠ .idle) →
    ∃ winner body, archiveAnswer (world.calls winner) = some (.ok body) ∧
      ∀ call, call ≠ winner → world.calls call = .idle ∨ archiveAnswer (world.calls call) = some alreadyArchived

/-- The times that requests have committed as `deleted_at`, the latest last. -/
def noteArchived (times : List DateTime) (before : World) (label : Label) (after : World) : List DateTime :=
  match before.calls label.call, after.calls label.call with
  | .loaded _ now _, .committed => times ++ [now]
  | _, _ => times

def archivedTimes (recordId : Int) (store : Store) (labels : List Label) : List DateTime :=
  (machine .softDelete recordId).observe noteArchived [] (.initial store) labels

/-- One request wins, and what is committed as `deleted_at` is read ever after. -/
structure ArchivedOnce (recordId : Int) (store : Store) (labels : List Label) (final : World) : Prop where
  one : OneArchives final
  kept : ∀ earlier later world, labels = earlier ++ later →
    (machine .softDelete recordId).run (.initial store) earlier = some world →
    ∀ time ∈ archivedTimes recordId store earlier,
      ∃ row, world.store.find? recordId = some row ∧ row.deletedAt = some time

/-- The call stands between its read and its commit. -/
def Phase.Pending : Phase → Prop
  | .loaded _ _ _ => True
  | .idle | .committed | .returned _ | .raised => False

def Phase.Won : Phase → Prop
  | .committed | .returned (some _) => True
  | .idle | .loaded _ _ _ | .returned none | .raised => False

/-- No request reads the row between the read and the commit of another. -/
def LoadsAlone (before : World) (label : Label) : Prop :=
  ∀ now updatedAt, label.act = .load now updatedAt → ∀ call, ¬ (before.calls call).Pending

variable {recordId : Int} {before after world final : World} {label : Label} {store : Store} {times : List DateTime}
  {call : Nat} {labels : List Label}

theorem pending_iff {phase : Phase} : phase.Pending ↔ ∃ old now updatedAt, phase = .loaded old now updatedAt := by
  cases phase <;> simp [Phase.Pending]

/-! ## Calls that are on their way to succeed -/

def Phase.Winning (phase : Phase) : Prop := phase.Pending ∨ phase.Won

/-- A call that has loaded the active row ends up having archived it. -/
theorem winning_step (present : before.store.find? recordId ≠ none) (winning : (before.calls call).Winning)
    (stepped : (machine .softDelete recordId).step before label = some after) : (after.calls call).Winning :=
  phase_step Phase.Winning present winning (fun idle => idle.elim id id) (fun _ _ _ _ => .inr trivial)
    (fun _ _ => .inr trivial) stepped

theorem won_step (present : before.store.find? recordId ≠ none) (won : (before.calls call).Won)
    (stepped : (machine .softDelete recordId).step before label = some after) : (after.calls call).Won :=
  phase_step Phase.Won present won id (fun _ _ _ pending => pending.elim) (fun _ _ => trivial) stepped

def ArchivedBySome (recordId : Int) (world : World) : Prop :=
  ∃ row, world.store.find? recordId = some row ∧ (row.Active ∨ ∃ call, (world.calls call).Won)

theorem ArchivedBySome.present (archived : ArchivedBySome recordId world) : world.store.find? recordId ≠ none := by
  obtain ⟨row, found, -⟩ := archived
  rw [found]
  exact Option.some_ne_none row

theorem archivedBySome_step (archived : ArchivedBySome recordId before)
    (stepped : (machine .softDelete recordId).step before label = some after) : ArchivedBySome recordId after := by
  have present := archived.present
  obtain ⟨row, found, status⟩ := archived
  have still : row.Active ∨ ∃ call, (after.calls call).Won :=
    status.imp_right fun ⟨winner, won⟩ => ⟨winner, won_step present won stepped⟩
  cases transition_of_step stepped with
  | refused | loaded | unchanged | refreshed => exact ⟨row, found, still⟩
  | written call old row now updatedAt later _ _ _ writes =>
    exact ⟨_, writes, .inr ⟨call, by rw [World.set_self]; trivial⟩⟩
  | gone _ _ missing => exact absurd missing present

theorem two_winning (archived : ArchivedBySome recordId before) {now updatedAt : DateTime}
    (loads : label.act = .load now updatedAt) (pending : (before.calls call).Pending)
    (stepped : (machine .softDelete recordId).step before label = some after) :
    ∃ first second, first ≠ second ∧ (after.calls first).Winning ∧ (after.calls second).Winning := by
  have present := archived.present
  obtain ⟨row, found, status⟩ := archived
  have winning : (after.calls call).Winning := winning_step present (.inl pending) stepped
  cases transition_of_step stepped with
  | refused other _ _ idle unfit =>
    rcases status with active | ⟨winner, won⟩
    · have fit := unfit row found
      rw [Change.softDelete, decide_eq_false_iff_not] at fit
      exact absurd active fit
    · refine ⟨call, winner, fun same => ?_, winning, .inr (won_step present won stepped)⟩
      obtain ⟨old, now, updatedAt, loaded⟩ := pending_iff.mp pending
      rw [← same, loaded] at won
      cases won
  | loaded other _ _ _ idle =>
    refine ⟨call, other, fun same => ?_, winning, .inl (by rw [World.set_self]; trivial)⟩
    rw [same, idle] at pending
    cases pending
  | unchanged | written | refreshed => cases loads
  | gone _ _ missing => exact absurd missing present

theorem succeeds (answered : final.Answered) (winning : (final.calls call).Winning) :
    ∃ body, archiveAnswer (final.calls call) = some (.ok body) := by
  have done := answered call
  cases phase : final.calls call with
  | idle | raised =>
    rw [phase] at winning
    exact (winning.elim id id).elim
  | loaded | committed =>
    rw [phase] at done
    rcases done with idle | answer
    · cases idle
    · cases answer
  | returned record =>
    rw [phase] at winning
    cases record with
    | none => exact (winning.elim id id).elim
    | some record => exact ⟨_, rfl⟩

theorem not_oneArchives {other : Nat} (answered : final.Answered) (different : call ≠ other)
    (first : (final.calls call).Winning) (second : (final.calls other).Winning) : ¬ OneArchives final := by
  intro one
  obtain ⟨_, firstOk⟩ := succeeds answered first
  obtain ⟨_, secondOk⟩ := succeeds answered second
  have begun : ∀ {call body}, archiveAnswer (final.calls call) = some (.ok body) → final.calls call ≠ .idle := by
    intro call body ok idle
    rw [idle] at ok
    cases ok
  obtain ⟨winner, _, -, others⟩ := one ⟨call, begun firstOk⟩
  have only : ∀ {call body}, archiveAnswer (final.calls call) = some (.ok body) → call = winner := by
    intro call body ok
    by_contra loser
    rcases others call loser with idle | missing
    · exact begun ok idle
    · cases ok.symm.trans missing
  exact different ((only firstOk).trans (only secondOk).symm)

/-! ## Calls that read alone -/

/-- Before the row is archived one call at most is pending, and after that all but its winner are refused. -/
inductive Lone (recordId : Int) (world : World) (times : List DateTime) : Prop where
  | active (row : Record) (found : world.store.find? recordId = some row) (active : row.Active) (none : times = [])
      (waiting : ∀ call, world.calls call = .idle ∨
        ∃ old now updatedAt, world.calls call = .loaded old now updatedAt ∧ old.Active)
      (alone : ∀ call other, (world.calls call).Pending → (world.calls other).Pending → call = other)
  | archived (row : Record) (found : world.store.find? recordId = some row) (winner : Nat)
      (kept : ∀ time ∈ times, row.deletedAt = some time) (closed : ¬ row.Active)
      (won : (world.calls winner).Won)
      (refused : ∀ call, call ≠ winner → world.calls call = .idle ∨ world.calls call = .returned none)

/-- A request that finds no other pending loads the row, and is the one that archives it. -/
theorem active_step {row : Record} (found : before.store.find? recordId = some row) (active : row.Active)
    (waiting : ∀ call, before.calls call = .idle ∨
      ∃ old now updatedAt, before.calls call = .loaded old now updatedAt ∧ old.Active)
    (single : ∀ call other, (before.calls call).Pending → (before.calls other).Pending → call = other)
    (alone : LoadsAlone before label) (stepped : (machine .softDelete recordId).step before label = some after) :
    Lone recordId after (noteArchived [] before label after) := by
  cases transition_of_step stepped with
  | refused call now updatedAt idle unfit =>
    have fit := unfit row found
    rw [Change.softDelete, decide_eq_false_iff_not] at fit
    exact absurd active fit
  | loaded call now updatedAt old idle found' proceeds =>
    have noted : noteArchived [] before ⟨call, .load now updatedAt⟩
        (before.set call before.store (.loaded old now updatedAt)) = [] := by simp [noteArchived, idle]
    rw [noted]
    refine .active row found active rfl (fun other => ?_) (fun first second firstPending secondPending => ?_)
    · rcases before.set_cases before.store (.loaded old now updatedAt) other with ⟨-, own⟩ | ⟨-, kept⟩
      · exact .inr ⟨old, now, updatedAt, own, of_decide_eq_true proceeds⟩
      · rw [kept]
        exact waiting other
    · have only : ∀ other, ((before.set call before.store (.loaded old now updatedAt)).calls other).Pending →
          other = call := by
        intro other pending
        rcases before.set_cases before.store (.loaded old now updatedAt) other with ⟨same, -⟩ | ⟨-, kept⟩
        · exact same
        · rw [kept] at pending
          exact absurd pending (alone now updatedAt rfl other)
      exact (only first firstPending).trans (only second secondPending).symm
  | unchanged call old now updatedAt loaded same =>
    rcases waiting call with idle | ⟨_, _, _, loaded', unarchived⟩
    · cases idle.symm.trans loaded
    · cases loaded.symm.trans loaded'
      cases unarchived.symm.trans (congrArg Record.deletedAt same).symm
  | written call old row' now updatedAt later loaded different found' writes =>
    have noted : noteArchived [] before ⟨call, .commit⟩ (before.set call later .committed) = [now] := by
      simp [noteArchived, loaded, World.set_self]
    rw [noted]
    refine .archived _ writes call (fun time member => ?_) (Option.some_ne_none now) ?_ (fun other different => ?_)
    · rw [List.mem_singleton.mp member]
      rfl
    · rw [World.set_self]
      trivial
    · rw [World.set_other before later .committed different]
      rcases waiting other with idle | ⟨old', _, _, loaded', -⟩
      · exact .inl idle
      · exact absurd (single other call (by rw [loaded']; trivial) (by rw [loaded]; trivial)) different
  | refreshed call record committed =>
    rcases waiting call with idle | ⟨_, _, _, loaded, -⟩
    · cases idle.symm.trans committed
    · cases loaded.symm.trans committed
  | gone _ _ missing =>
    rw [found] at missing
    cases missing

theorem archived_step {row : Record} (found : before.store.find? recordId = some row) {winner : Nat}
    (kept : ∀ time ∈ times, row.deletedAt = some time) (closed : ¬ row.Active) (won : (before.calls winner).Won)
    (refused : ∀ call, call ≠ winner → before.calls call = .idle ∨ before.calls call = .returned none)
    (stepped : (machine .softDelete recordId).step before label = some after) :
    Lone recordId after (noteArchived times before label after) := by
  have present : before.store.find? recordId ≠ none := by
    rw [found]
    exact Option.some_ne_none row
  have wins := won_step present won stepped
  cases transition_of_step stepped with
  | refused call now updatedAt idle unfit =>
    have noted : noteArchived times before ⟨call, .load now updatedAt⟩
        (before.set call before.store (.returned none)) = times := by simp [noteArchived, idle]
    rw [noted]
    refine .archived row found winner kept closed wins fun other different => ?_
    rcases before.set_cases before.store (.returned none) other with ⟨-, own⟩ | ⟨-, same⟩
    · exact .inr own
    · rw [same]
      exact refused other different
  | loaded call now updatedAt old idle found' proceeds =>
    cases found.symm.trans found'
    exact absurd (of_decide_eq_true proceeds) closed
  | unchanged call old now updatedAt loaded | written call old row' now updatedAt later loaded =>
    by_cases same : call = winner
    · rw [← same, loaded] at won
      cases won
    · rcases refused call same with idle | missing
      · cases idle.symm.trans loaded
      · cases missing.symm.trans loaded
  | refreshed call record committed found' =>
    have noted : noteArchived times before ⟨call, .refresh⟩
        (before.set call before.store (.returned (some record))) = times := by simp [noteArchived, committed]
    rw [noted]
    refine .archived row found winner kept closed wins fun other different => ?_
    rcases before.set_cases before.store (.returned (some record)) other with ⟨own, -⟩ | ⟨-, same⟩
    · rw [own] at different
      rcases refused call different with idle | missing
      · cases idle.symm.trans committed
      · cases missing.symm.trans committed
    · rw [same]
      exact refused other different
  | gone _ _ missing => exact absurd missing present

theorem lone_step (lone : Lone recordId before times) (alone : LoadsAlone before label)
    (stepped : (machine .softDelete recordId).step before label = some after) :
    Lone recordId after (noteArchived times before label after) := by
  cases lone with
  | active row found active none waiting single =>
    subst none
    exact active_step found active waiting single alone stepped
  | archived row found winner kept closed won refused =>
    exact archived_step found kept closed won refused stepped

theorem Lone.oneArchives (lone : Lone recordId final times) (answered : final.Answered) : OneArchives final := by
  rintro ⟨call, begun⟩
  cases lone with
  | active row found active none waiting alone =>
    rcases waiting call with idle | ⟨old, now, updatedAt, loaded, -⟩
    · exact absurd idle begun
    · rcases answered call with idle | answer
      · exact absurd idle begun
      · rw [loaded] at answer
        cases answer
  | archived row found winner kept closed won refused =>
    obtain ⟨body, ok⟩ := succeeds answered (.inr won)
    exact ⟨winner, body, ok, fun other different =>
      (refused other different).imp_right fun missing => by rw [missing]; rfl⟩

theorem Lone.kept (lone : Lone recordId world times) :
    ∀ time ∈ times, ∃ row, world.store.find? recordId = some row ∧ row.deletedAt = some time := by
  intro time member
  cases lone with
  | active row found active none =>
    rw [none] at member
    cases member
  | archived row found winner kept => exact ⟨row, found, kept time member⟩

/-- In every interleaving of archive requests for an active record exactly one
of them succeeds, and the time of its archiving stays, exactly if no request
reads the row while another stands between its read and its commit. -/
theorem archived_once_iff (recordId : Int) (store : Store) (record : Record) (found : store.find? recordId = some record)
    (active : record.Active) (labels : List Label) (final : World)
    (ran : (machine .softDelete recordId).run (.initial store) labels = some final) (answered : final.Answered) :
    ArchivedOnce recordId store labels final ↔
      (machine .softDelete recordId).Every (.initial store) labels fun _ before label _ => LoadsAlone before label := by
  have start : Lone recordId (.initial store) [] :=
    .active record found active rfl (fun _ => .inl rfl) (fun _ _ pending => pending.elim)
  constructor
  · intro once earlier label later before after split ranTo stepped now updatedAt loads call pending
    have archived : ArchivedBySome recordId before := Machine.invariant_of_step (ArchivedBySome recordId)
      ⟨record, found, .inl active⟩ (fun _ _ _ => archivedBySome_step) ranTo
    have archivedAfter := archivedBySome_step archived stepped
    obtain ⟨first, second, different, firstWins, secondWins⟩ := two_winning archived loads pending stepped
    have rest : (machine .softDelete recordId).run after later = some final := by
      rw [split] at ran
      obtain ⟨middle, head, tail⟩ := Machine.run_append.mp ran
      cases ranTo.symm.trans head
      obtain ⟨next, steppedToo, tail⟩ := Machine.run_cons.mp tail
      cases stepped.symm.trans steppedToo
      exact tail
    obtain ⟨-, wins⟩ := Machine.invariant_of_step
      (fun world => ArchivedBySome recordId world ∧
        (world.calls first).Winning ∧ (world.calls second).Winning) ⟨archivedAfter, firstWins, secondWins⟩
      (fun _ _ _ kept stepped => ⟨archivedBySome_step kept.1 stepped,
        winning_step kept.1.present kept.2.1 stepped, winning_step kept.1.present kept.2.2 stepped⟩) rest
    exact not_oneArchives answered different wins.1 wins.2 once.one
  · intro every
    have lone : ∀ earlier later world, labels = earlier ++ later →
        (machine .softDelete recordId).run (.initial store) earlier = some world →
        Lone recordId world (archivedTimes recordId store earlier) := by
      rintro earlier later world rfl ranTo
      exact Machine.invariant_observed (Lone recordId) start every.of_append
        (fun _ _ _ _ lone alone stepped => lone_step lone alone stepped) ranTo
    exact ⟨(lone labels [] final (List.append_nil labels).symm ran).oneArchives answered,
      fun earlier later world split ranTo => (lone earlier later world split ranTo).kept⟩

def oneAfterTheOther : List Label :=
  [⟨0, .load (january 10) (january 10)⟩, ⟨0, .commit⟩, ⟨1, .load (january 11) (january 11)⟩, ⟨0, .refresh⟩]

theorem archived_once_oneAfterTheOther : ∃ final,
    (machine .softDelete 1).run (.initial oneRecord) oneAfterTheOther = some final ∧
      ArchivedOnce 1 oneRecord oneAfterTheOther final := by
  have answered : ∃ final, (machine .softDelete 1).run (.initial oneRecord) oneAfterTheOther = some final ∧
      final.Answered := by
    refine ⟨_, rfl, fun call => ?_⟩
    rcases call with _ | _ | call
    · exact .inr rfl
    · exact .inr rfl
    · exact .inl rfl
  obtain ⟨final, ran, answered⟩ := answered
  refine ⟨final, ran, (archived_once_iff 1 oneRecord _ rfl rfl oneAfterTheOther final ran answered).mpr ?_⟩
  have split : oneAfterTheOther = [] ++ [⟨0, .load (january 10) (january 10)⟩] ++ [⟨0, .commit⟩] ++
      [⟨1, .load (january 11) (january 11)⟩] ++ [⟨0, .refresh⟩] := rfl
  rw [split]
  simp only [Machine.every_concat]
  refine ⟨⟨⟨⟨Machine.every_nil, ?_⟩, ?_⟩, ?_⟩, ?_⟩
  · rintro before after ran - now updatedAt - call pending
    cases ran
    exact pending
  · rintro before after - - now updatedAt loads
    cases loads
  · rintro before after ran - now updatedAt - call pending
    cases ran
    rcases call with _ | call
    · exact pending
    · exact pending
  · rintro before after - - now updatedAt loads
    cases loads

/-- Both of two requests that read the active row succeed. -/
theorem archived_twice :
    ∃ record, oneRecord.find? 1 = some record ∧ record.Active ∧ ∃ final,
      (machine .softDelete 1).run (.initial oneRecord) together = some final ∧ final.Answered ∧
      ¬ ArchivedOnce 1 oneRecord together final := by
  have answered : ∃ final, (machine .softDelete 1).run (.initial oneRecord) together = some final ∧
      final.Answered ∧ (final.calls 0).Winning ∧ (final.calls 1).Winning := by
    refine ⟨_, rfl, fun call => ?_, .inr trivial, .inr trivial⟩
    rcases call with _ | _ | call
    · exact .inr rfl
    · exact .inr rfl
    · exact .inl rfl
  obtain ⟨final, ran, answered, first, second⟩ := answered
  exact ⟨_, rfl, rfl, final, ran, answered, fun once => not_oneArchives answered Nat.zero_ne_one first second once.one⟩

end DataPipeline.Ingestor.RecordRace
