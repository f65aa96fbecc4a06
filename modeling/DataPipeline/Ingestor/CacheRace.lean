import DataPipeline.Ingestor.ReadThrough

/-! Overlapping `GET /records/{id}`, `PATCH /records/{id}/process` and
`DELETE /records/{id}` requests, whose steps on the cache and on the database
come in any order.

Every request has a session of its own. Its UPDATE or DELETE and the commit are
one step, since no other request sees the change before the commit. UPDATE sets
the changed columns of the row as it is then, and raises if the row is gone.
-/

set_option autoImplicit false

namespace DataPipeline.Ingestor.CacheRace

open Calendar Execution Records

/-- What is done to the row, with the readings of `_utcnow`. -/
inductive Write where
  | process (now updatedAt : DateTime)
  | delete
  deriving DecidableEq

/-- Where a request stands between two of its steps. `committed` is a process
request that has still to refresh its record. -/
inductive Phase where
  | idle
  | missed (recordId : Int)
  | read (recordId : Int) (response : RecordResponse)
  | loaded (write : Write) (recordId : Int) (old : Record)
  | committed (recordId : Int)
  | written (recordId : Int) (answer : Response)
  | ended (answer : Response)
  deriving DecidableEq

/-- The steps of a request; `now` is the time of a step on the cache. -/
inductive Act where
  | cacheGet (recordId : Int) (now : ℚ)
  | databaseRead
  | cacheSet (now : ℚ)
  | load (write : Write) (recordId : Int)
  | commit
  | refresh
  | cacheInvalidate

/-- The row after an UPDATE of the columns that `mark_processed` changes in the loaded one. -/
def markColumns (old row : Record) (now updatedAt : DateTime) : Record :=
  { row with
    processed := if old.processed then row.processed else true
    processedAt := if old.processedAt = none then some now else row.processedAt
    updatedAt := some updatedAt }

/-- Flush and commit. None stands for an exception, which leaves the store as it was. -/
def Write.commit (store : Store) (recordId : Int) (old : Record) : Write → Option Store
  | .process now updatedAt =>
    let marked : Record := { old with processed := true, processedAt := old.processedAt.or (some now) }
    if marked = old then some store
    else (store.find? recordId).bind fun row => store.replace? (markColumns old row now updatedAt)
  -- A DELETE that finds no row only warns.
  | .delete => some (store.erase recordId)

def Write.committed (recordId : Int) : Write → Phase
  | .process _ _ => .committed recordId
  | .delete => .written recordId .noContent

def advance (codec : RecordCodec) (shared : Records.World) : Act → Phase → Option (Records.World × Phase)
  | .cacheGet recordId now, .idle =>
    if shared.clock ≤ now then
      match Cache.getRecord codec shared.cache now recordId with
      | some cachedRecord => some ({ shared with clock := now }, .ended (.ok cachedRecord))
      | none => some ({ shared with clock := now }, .missed recordId)
    else none
  | .databaseRead, .missed recordId =>
    match Ingestor.getRecord shared.store recordId with
    | some record => some (shared, .read recordId (.modelValidate record))
    | none => some (shared, .ended notFound)
  | .cacheSet now, .read recordId response =>
    if shared.clock ≤ now then
      let cache := Cache.setRecord codec shared.cache now recordId response Cache.cacheTtlRecord
      some ({ shared with cache, clock := now }, .ended (.ok response))
    else none
  | .load write recordId, .idle =>
    match shared.store.find? recordId with
    | some old => some (shared, .loaded write recordId old)
    | none => some (shared, .ended notFound)
  | .commit, .loaded write recordId old =>
    match write.commit shared.store recordId old with
    | some store => some ({ shared with store }, write.committed recordId)
    | none => some (shared, .ended .internalServerError)
  | .refresh, .committed recordId =>
    -- `session.refresh` reads the row again and raises if it is gone.
    match shared.store.find? recordId with
    | some record => some (shared, .written recordId (.ok (.modelValidate record)))
    | none => some (shared, .ended .internalServerError)
  | .cacheInvalidate, .written recordId answer =>
    some ({ shared with cache := Cache.invalidateRecord shared.cache recordId }, .ended answer)
  | _, _ => none

structure World where
  shared : Records.World
  calls : Nat → Phase

def World.initial (shared : Records.World) : World := ⟨shared, fun _ => .idle⟩

structure Label where
  call : Nat
  act : Act

def machine (codec : RecordCodec) : Machine World Label where
  step world label :=
    (advance codec world.shared label.act (world.calls label.call)).map fun (shared, phase) =>
      ⟨shared, Function.update world.calls label.call phase⟩

/-- The steps of one request while no other takes any. -/
def solo (codec : RecordCodec) : Machine (Records.World × Phase) Act where
  step state act := advance codec state.1 act state.2

/-! ## What is promised -/

/-- What the cache holds for a record is the text of what its row says. -/
def EntryCurrent (codec : RecordCodec) (shared : Records.World) (recordId : Int) : Prop :=
  ∀ now text, shared.clock ≤ now → shared.cache.get now (Cache.cacheKeyRecord recordId) = some text →
    ∃ response, current shared.store recordId = some response ∧ codec.modelDumpJson response = some text

def World.Quiet (world : World) : Prop :=
  ∀ call, world.calls call = .idle ∨ ∃ answer, world.calls call = .ended answer

/-- Once all requests have completed, entries are what the rows say, and so are
the answers to later GETs. -/
def Settled (codec : RecordCodec) (world : World) : Prop :=
  world.Quiet → (∀ recordId, EntryCurrent codec world.shared recordId) ∧ Coherent codec world.shared

/-- The request has loaded the row of the record and will yet clear the entry.
A process request whose row is deleted raises instead. -/
def Phase.WillInvalidate (store : Store) (recordId : Int) : Phase → Prop
  | .loaded .delete target _ | .written target _ => target = recordId
  | .loaded (.process _ _) target _ | .committed target => target = recordId ∧ store.find? recordId ≠ none
  | .idle | .missed _ | .read _ _ | .ended _ => False

def World.Invalidating (world : World) (recordId : Int) : Prop :=
  ∃ call, (world.calls call).WillInvalidate world.shared.store recordId

/-- What a GET writes to the cache is still what the row says, or will yet be cleared. -/
def Label.SetsCurrent (before : World) (label : Label) : Prop :=
  ∀ now recordId response, label.act = .cacheSet now → before.calls label.call = .read recordId response →
    current before.shared.store recordId = some response ∨ before.Invalidating recordId

variable {codec : RecordCodec} {shared : Records.World} {before after : World} {label : Label}
  {store later : Store} {recordId : Int} {call : Nat} {act : Act} {phase next : Phase} {response : RecordResponse}
  {old row : Record} {now updatedAt : DateTime}

theorem machine_step :
    (machine codec).step before label = some after ↔
      ∃ shared phase, advance codec before.shared label.act (before.calls label.call) = some (shared, phase) ∧
        after = ⟨shared, Function.update before.calls label.call phase⟩ := by
  simp only [machine, Option.map_eq_some_iff, Prod.exists]
  exact exists_congr fun _ => exists_congr fun _ => and_congr_right fun _ => eq_comm

/-! ## What a commit does -/

theorem markColumns_key : (markColumns old row now updatedAt).key = row.key := rfl

theorem markColumns_id : (markColumns old row now updatedAt).id = row.id := rfl

theorem commit_process_eq_none_iff :
    (Write.process now updatedAt).commit store recordId old = none ↔
      ({ old with processed := true, processedAt := old.processedAt.or (some now) } : Record) ≠ old ∧
        store.find? recordId = none := by
  simp only [Write.commit]
  split
  next same => simp only [reduceCtorEq, same, ne_eq, not_true, false_and]
  next different =>
    rw [Option.bind_eq_none_iff]
    constructor
    · intro raises
      refine ⟨different, ?_⟩
      by_contra present
      obtain ⟨row, found⟩ := Option.ne_none_iff_exists'.mp present
      exact Table.replace?_ne_none (Table.find?_eq_some_iff.mp found).1 markColumns_id markColumns_key
        (raises row found)
    · rintro ⟨-, missing⟩ row found
      rw [missing] at found
      cases found

theorem commit_process_outcomes
    (committed : (Write.process now updatedAt).commit store recordId old = some later) :
    later = store ∨ ∃ row, store.find? recordId = some row ∧
      ∀ id, later.find? id = if recordId = id then some (markColumns old row now updatedAt) else store.find? id := by
  simp only [Write.commit] at committed
  split at committed
  next => cases committed; exact .inl rfl
  next =>
    obtain ⟨row, found, replacing⟩ := Option.bind_eq_some_iff.mp committed
    obtain ⟨member, rfl⟩ := Table.find?_eq_some_iff.mp found
    exact .inr ⟨row, found, fun id => Table.find?_replace? replacing ⟨row, member, rfl⟩⟩

theorem standard_commit {write : Write} (committed : write.commit store recordId old = some later)
    (standard : StandardRows store) : StandardRows later := by
  cases write with
  | delete =>
    cases committed
    exact standard_erase standard
  | process now updatedAt =>
    rcases commit_process_outcomes committed with rfl | ⟨row, present, rows⟩
    · exact standard
    · intro id record found
      rw [rows] at found
      split at found
      · cases found; exact standard recordId row present
      · exact standard id record found

theorem markColumns_self : markColumns old old now updatedAt =
    { old with processed := true, processedAt := old.processedAt.or (some now), updatedAt := some updatedAt } := by
  unfold markColumns
  cases old.processed <;> cases old.processedAt <;> rfl

/-! ## Requests on their own -/

/-- The steps that a request takes on its own are steps of all requests together. -/
theorem run_of_solo {acts : List Act}
    (ran : (solo codec).run (before.shared, before.calls call) acts = some (shared, phase)) :
    (machine codec).run before (acts.map (Label.mk call)) =
      some ⟨shared, Function.update before.calls call phase⟩ := by
  induction acts generalizing before with
  | nil =>
    cases ran
    rw [Function.update_eq_self]
    rfl
  | cons act rest ih =>
    obtain ⟨⟨middle, next⟩, advanced, ran⟩ := Machine.run_cons.mp ran
    refine Machine.run_cons.mpr ⟨⟨middle, Function.update before.calls call next⟩, ?_, ?_⟩
    · exact machine_step.mpr ⟨middle, next, advanced, rfl⟩
    · rw [ih (by simpa only [Function.update_self] using ran), Function.update_idem]

theorem get_solo (codec : RecordCodec) (recordId : Int) {started finished : ℚ} (arrives : shared.clock ≤ started)
    (finishes : started ≤ finished) :
    ∃ rest after, (solo codec).run (shared, .idle) (.cacheGet recordId started :: rest) =
        some (after, .ended (Records.getRecord codec shared recordId started finished).2) ∧
      after.store = (Records.getRecord codec shared recordId started finished).1.store ∧
      after.cache = (Records.getRecord codec shared recordId started finished).1.cache := by
  unfold Records.getRecord
  cases cached : Cache.getRecord codec shared.cache started recordId with
  | some content =>
    exact ⟨[], { shared with clock := started }, by simp [Machine.run, solo, advance, arrives, cached], rfl, rfl⟩
  | none =>
    cases found : Ingestor.getRecord shared.store recordId with
    | none =>
      exact ⟨[.databaseRead], { shared with clock := started },
        by simp [Machine.run, solo, advance, arrives, cached, found], rfl, rfl⟩
    | some record =>
      exact ⟨[.databaseRead, .cacheSet finished], { shared with
          clock := finished
          cache :=
            Cache.setRecord codec shared.cache finished recordId (.modelValidate record) Cache.cacheTtlRecord },
        by simp [Machine.run, solo, advance, arrives, finishes, cached, found], rfl, rfl⟩

theorem delete_solo (codec : RecordCodec) (shared : Records.World) (recordId : Int) :
    ∃ rest, (solo codec).run (shared, .idle) (.load .delete recordId :: rest) =
      some ((Records.deleteRecord shared recordId).1, .ended (Records.deleteRecord shared recordId).2) := by
  unfold Records.deleteRecord Ingestor.deleteRecord
  cases found : shared.store.find? recordId with
  | none => exact ⟨[], by simp [Machine.run, solo, advance, found]⟩
  | some old =>
    exact ⟨[.commit, .cacheInvalidate],
      by simp [Machine.run, solo, advance, found, Write.commit, Write.committed]⟩

theorem commit_process_writeBack (found : store.find? recordId = some old) :
    (Write.process now updatedAt).commit store recordId old =
      (writeBack store old { old with processed := true, processedAt := old.processedAt.or (some now) }
        updatedAt).map Prod.fst := by
  simp only [Write.commit, writeBack, found, Option.bind_some, markColumns_self]
  split
  next => rfl
  next => rw [Option.map_map]; exact Option.map_id'.symm

theorem solo_committed {record : Record}
    (committed : (Write.process now updatedAt).commit shared.store recordId old = some later)
    (present : later.find? recordId = some record) :
    (solo codec).run (shared, .loaded (.process now updatedAt) recordId old) [.commit, .refresh, .cacheInvalidate] =
      some (⟨later, Cache.invalidateRecord shared.cache recordId, shared.clock⟩,
        .ended (.ok (.modelValidate record))) := by
  simp only [Machine.run, solo, advance, committed, Write.committed, present, Option.bind_some]

theorem process_solo (codec : RecordCodec) (shared : Records.World) (recordId : Int) (now updatedAt : DateTime) :
    ∃ rest, (solo codec).run (shared, .idle) (.load (.process now updatedAt) recordId :: rest) =
      some ((Records.processRecord shared recordId now updatedAt).1,
        .ended (Records.processRecord shared recordId now updatedAt).2) := by
  cases found : shared.store.find? recordId with
  | none =>
    exact ⟨[],
      by simp only [Machine.run, solo, advance, found, Records.processRecord, markProcessed, Option.bind_some]⟩
  | some old =>
    refine ⟨[.commit, .refresh, .cacheInvalidate], ?_⟩
    have loads : (solo codec).step (shared, .idle) (.load (.process now updatedAt) recordId) =
        some (shared, .loaded (.process now updatedAt) recordId old) := by
      simp only [solo, advance, found]
    refine Machine.run_cons.mpr ⟨_, loads, ?_⟩
    let marked : Record := { old with processed := true, processedAt := old.processedAt.or (some now) }
    have markedId : marked.id = old.id := rfl
    have commits : (Write.process now updatedAt).commit shared.store recordId old =
        (writeBack shared.store old marked updatedAt).map Prod.fst := commit_process_writeBack found
    rcases writeBack_outcomes updatedAt found markedId with
      ⟨same, wrote⟩ | ⟨different, taken, wrote⟩ | ⟨different, -, after, wrote, rows⟩
    · rw [wrote] at commits
      simp only [Records.processRecord, markProcessed, found, marked, wrote, Option.map_some]
      exact solo_committed commits found
    · rw [wrote] at commits
      -- The row that the session has loaded is there, so nothing raises.
      rw [(commit_process_eq_none_iff.mp commits).2] at found
      cases found
    · rw [wrote] at commits
      simp only [Records.processRecord, markProcessed, found, marked, wrote, Option.map_some]
      exact solo_committed commits (by rw [rows, if_pos rfl])

/-- Only overlapping is new: on its own, a request does what its endpoint does. -/
theorem request_alone {started finished : ℚ} (idle : before.calls call = .idle)
    (arrives : before.shared.clock ≤ started) (finishes : started ≤ finished) :
    (∃ rest after, (machine codec).run before
        (⟨call, .cacheGet recordId started⟩ :: List.map (Label.mk call) rest) = some
          ⟨after, Function.update before.calls call
            (.ended (Records.getRecord codec before.shared recordId started finished).2)⟩ ∧
      after.store = (Records.getRecord codec before.shared recordId started finished).1.store ∧
      after.cache = (Records.getRecord codec before.shared recordId started finished).1.cache) ∧
    (∃ rest, (machine codec).run before
      (⟨call, .load (.process now updatedAt) recordId⟩ :: List.map (Label.mk call) rest) = some
        ⟨(Records.processRecord before.shared recordId now updatedAt).1, Function.update before.calls call
          (.ended (Records.processRecord before.shared recordId now updatedAt).2)⟩) ∧
    ∃ rest, (machine codec).run before
      (⟨call, .load .delete recordId⟩ :: List.map (Label.mk call) rest) = some
        ⟨(Records.deleteRecord before.shared recordId).1, Function.update before.calls call
          (.ended (Records.deleteRecord before.shared recordId).2)⟩ := by
  refine ⟨?_, ?_, ?_⟩
  · obtain ⟨rest, after, ran, store, cache⟩ := get_solo codec recordId arrives finishes
    exact ⟨rest, after, run_of_solo (by rw [idle]; exact ran), store, cache⟩
  · obtain ⟨rest, ran⟩ := process_solo codec before.shared recordId now updatedAt
    exact ⟨rest, run_of_solo (by rw [idle]; exact ran)⟩
  · obtain ⟨rest, ran⟩ := delete_solo codec before.shared recordId
    exact ⟨rest, run_of_solo (by rw [idle]; exact ran)⟩

/-! ## What a step does -/

inductive Effect (codec : RecordCodec) (before : Records.World) (act : Act) (phase : Phase) (after : Records.World)
    (next : Phase) : Prop where
  | passed (store : after.store = before.store) (cache : after.cache = before.cache)
      (clock : before.clock ≤ after.clock)
      (keeps : ∀ id, phase.WillInvalidate before.store id → next.WillInvalidate before.store id)
  | filled (recordId : Int) (response : RecordResponse) (now : ℚ) (sets : act = .cacheSet now)
      (holds : phase = .read recordId response) (store : after.store = before.store)
      (cache : after.cache = Cache.setRecord codec before.cache now recordId response Cache.cacheTtlRecord)
      (clock : before.clock ≤ after.clock)
  | wrote (recordId : Int) (others : ∀ id, recordId ≠ id → after.store.find? id = before.store.find? id)
      (standard : StandardRows before.store → StandardRows after.store) (cache : after.cache = before.cache)
      (clock : after.clock = before.clock) (only : ∀ id, phase.WillInvalidate before.store id → recordId = id)
      (will : next.WillInvalidate after.store recordId)
  | cleared (recordId : Int) (store : after.store = before.store)
      (cache : after.cache = Cache.invalidateRecord before.cache recordId) (clock : after.clock = before.clock)
      (only : ∀ id, phase.WillInvalidate before.store id → recordId = id)

theorem commit_effect {write : Write} (committed : write.commit shared.store recordId old = some later) :
    Effect codec shared .commit (.loaded write recordId old) { shared with store := later }
      (write.committed recordId) := by
  cases write with
  | delete =>
    refine .wrote recordId ?_ (standard_commit committed) rfl rfl (fun _ will => will) rfl
    intro id different
    rw [← Option.some.inj committed, Table.find?_erase, if_neg different]
  | process now updatedAt =>
    rcases commit_process_outcomes committed with rfl | ⟨row, present, rows⟩
    -- Nothing was written, but the entry is cleared if the row is still there.
    · exact .passed rfl rfl le_rfl fun _ will => will
    · refine .wrote recordId ?_ (standard_commit committed) rfl rfl (fun _ will => will.1) ⟨rfl, ?_⟩
      · intro id different
        rw [rows, if_neg different]
      · rw [rows, if_pos rfl]
        exact Option.some_ne_none _

theorem advance_effect {after : Records.World} (advanced : advance codec shared act phase = some (after, next)) :
    Effect codec shared act phase after next := by
  unfold advance at advanced
  split at advanced
  case h_1 recordId now =>
    obtain ⟨order, advanced⟩ := Option.ite_none_right_eq_some.mp advanced
    split at advanced <;> cases advanced <;> exact .passed rfl rfl order fun _ will => will.elim
  case h_2 recordId =>
    split at advanced <;> cases advanced <;> exact .passed rfl rfl le_rfl fun _ will => will.elim
  case h_3 now recordId response =>
    obtain ⟨order, advanced⟩ := Option.ite_none_right_eq_some.mp advanced
    cases advanced
    exact .filled recordId response now rfl rfl rfl rfl order
  case h_4 write recordId =>
    split at advanced <;> cases advanced <;> exact .passed rfl rfl le_rfl fun _ will => will.elim
  case h_5 write recordId old =>
    split at advanced
    next store committed =>
      cases advanced
      exact commit_effect committed
    next raised =>
      cases advanced
      cases write with
      | delete => cases raised
      | process now updatedAt =>
        -- The row is gone, so the request had nothing to clear.
        have missing := (commit_process_eq_none_iff.mp raised).2
        refine .passed rfl rfl le_rfl ?_
        rintro id ⟨rfl, present⟩
        exact present missing
  case h_6 recordId =>
    split at advanced
    next record found =>
      cases advanced
      exact .passed rfl rfl le_rfl fun _ will => will.1
    next missing =>
      cases advanced
      refine .passed rfl rfl le_rfl ?_
      rintro id ⟨rfl, present⟩
      exact present missing
  case h_7 recordId answer =>
    cases advanced
    exact .cleared recordId rfl rfl rfl fun _ will => will
  case h_8 => cases advanced

/-! ## Requests under way -/

theorem willInvalidate_congr {id : Int} (same : later.find? id = store.find? id) :
    phase.WillInvalidate later id ↔ phase.WillInvalidate store id := by
  unfold Phase.WillInvalidate
  rw [same]

theorem World.Quiet.not_invalidating (quiet : before.Quiet) (id : Int) : ¬ before.Invalidating id := by
  rintro ⟨call, will⟩
  rcases quiet call with idle | ⟨answer, ended⟩
  · rw [idle] at will; exact will
  · rw [ended] at will; exact will

/-- An entry that will be cleared still will be after a step of some request,
if that was not the one to do so or still is, and the row is as before. -/
theorem World.Invalidating.step {id : Int} (invalidating : before.Invalidating id)
    (row : shared.store.find? id = before.shared.store.find? id)
    (keeps : (before.calls call).WillInvalidate before.shared.store id →
      phase.WillInvalidate before.shared.store id) :
    World.Invalidating ⟨shared, Function.update before.calls call phase⟩ id := by
  obtain ⟨other, will⟩ := invalidating
  refine ⟨other, (willInvalidate_congr row).mpr ?_⟩
  by_cases same : other = call
  · subst same
    simp only [Function.update_self]
    exact keeps will
  · simp only [Function.update_of_ne same]
    exact will

theorem EntryCurrent.step {after before : Records.World} {id : Int} (entry : EntryCurrent codec before id)
    (clock : before.clock ≤ after.clock) (row : current after.store id = current before.store id)
    (kept : ∀ now text, after.cache.get now (Cache.cacheKeyRecord id) = some text →
      before.cache.get now (Cache.cacheKeyRecord id) = some text) : EntryCurrent codec after id := by
  intro now text order held
  rw [row]
  exact entry now text (clock.trans order) (kept now text held)

/-! ## Entries -/

structure Kept (codec : RecordCodec) (world : World) : Prop where
  standard : StandardRows world.shared.store
  entries : ∀ recordId, EntryCurrent codec world.shared recordId ∨ world.Invalidating recordId

theorem kept_step (kept : Kept codec before) (meets : label.SetsCurrent before)
    (stepped : (machine codec).step before label = some after) : Kept codec after := by
  obtain ⟨shared, phase, advanced, rfl⟩ := machine_step.mp stepped
  rcases advance_effect advanced with
    ⟨store, cache, clock, keeps⟩ | ⟨target, response, now, sets, holds, store, cache, clock⟩ |
    ⟨target, others, standard, cache, clock, only, will⟩ | ⟨target, store, cache, clock, only⟩
  case passed =>
    refine ⟨by simp only [store]; exact kept.standard, fun id => ?_⟩
    refine (kept.entries id).imp (fun entry => ?_) fun invalidating => ?_
    · exact entry.step clock (by rw [store]) fun now text held => by rw [← cache]; exact held
    · exact invalidating.step (by rw [store]) (keeps id)
  case filled =>
    have harmless : ∀ id, ¬ (before.calls label.call).WillInvalidate before.shared.store id := by
      rw [holds]
      exact fun _ will => will
    have keeps : ∀ id, before.Invalidating id →
        World.Invalidating ⟨shared, Function.update before.calls label.call phase⟩ id :=
      fun id invalidating => invalidating.step (by rw [store]) fun will => absurd will (harmless id)
    refine ⟨by simp only [store]; exact kept.standard, fun id => ?_⟩
    rcases kept.entries id with entry | invalidating
    · by_cases here : id = target
      · subst here
        refine (meets now id response sets holds).imp (fun row => ?_) (keeps id)
        intro now text order held
        -- What is held now is the response just written, or was held before.
        rcases Cache.get_setRecord (cache ▸ held) with ⟨-, dumped⟩ | earlier
        · exact ⟨response, store ▸ row, dumped⟩
        · exact store ▸ entry now text (clock.trans order) earlier
      · refine .inl (entry.step clock (by rw [store]) fun now text held => ?_)
        exact (Cache.get_setRecord (cache ▸ held)).resolve_left fun written => here written.1
    · exact .inr (keeps id invalidating)
  case wrote =>
    refine ⟨standard kept.standard, fun id => ?_⟩
    by_cases here : target = id
    · subst here
      refine .inr ⟨label.call, ?_⟩
      simp only [Function.update_self]
      exact will
    · refine (kept.entries id).imp (fun entry => ?_) fun invalidating => ?_
      · exact entry.step clock.ge (current_of_find? (others id here)) fun now text held => by rw [← cache]; exact held
      · exact invalidating.step (others id here) fun will => absurd (only id will) here
  case cleared =>
    refine ⟨by simp only [store]; exact kept.standard, fun id => ?_⟩
    by_cases here : id = target
    · left
      intro now text order held
      rw [cache, Cache.get_invalidateRecord, if_pos here] at held
      cases held
    · refine (kept.entries id).imp (fun entry => ?_) fun invalidating => ?_
      · refine entry.step clock.ge (by rw [store]) fun now text held => ?_
        rw [cache, Cache.get_invalidateRecord, if_neg here] at held
        exact held
      · exact invalidating.step (by rw [store]) fun will => absurd (only id will).symm here

theorem coherent_of_entries (faithful : codec.Faithful) (standard : StandardRows shared.store)
    (entries : ∀ recordId, EntryCurrent codec shared recordId) : Coherent codec shared := by
  rw [coherent_iff]
  intro recordId now response order cached
  obtain ⟨text, held, read⟩ := Option.bind_eq_some_iff.mp cached
  obtain ⟨said, row, dumped⟩ := entries recordId now text order held
  rw [row, faithful said text response (standard_current standard row) dumped read]

/-- Once all requests have completed, every entry is what its row says, if no
GET writes what its row no longer says unless the entry will yet be cleared. -/
theorem settled_of_sets_current (codec : RecordCodec) (faithful : codec.Faithful) (shared : Records.World)
    (standard : ∀ record ∈ shared.store.rows, (Json.dict record.rawData).isFinite = true)
    (entries : ∀ recordId, EntryCurrent codec shared recordId) (labels : List Label)
    (every : (machine codec).Every (.initial shared) labels fun _ before label _ => label.SetsCurrent before) :
    (machine codec).Throughout (.initial shared) labels (Settled codec) := by
  have initial : Kept codec (.initial shared) := by
    refine ⟨?_, fun recordId => .inl (entries recordId)⟩
    intro id record found
    exact standard record (Table.find?_eq_some_iff.mp found).1
  have kept : (machine codec).Throughout (.initial shared) labels (Kept codec) :=
    Machine.throughout_of_every (Kept codec) initial every fun _ _ _ _ held meets stepped =>
      kept_step held meets stepped
  intro earlier later world split ran quiet
  have held := kept earlier later world split ran
  -- With no request under way there is none that will clear an entry.
  have entries : ∀ recordId, EntryCurrent codec world.shared recordId :=
    fun recordId => (held.entries recordId).resolve_right (quiet.not_invalidating recordId)
  exact ⟨entries, coherent_of_entries faithful held.standard entries⟩

/-! ## Who is under way -/

theorem calls_run_of_ne {labels : List Label} (ran : (machine codec).run before labels = some after)
    (absent : ∀ label ∈ labels, label.call ≠ call) : after.calls call = before.calls call := by
  induction labels generalizing before with
  | nil => cases ran; rfl
  | cons label rest ih =>
    obtain ⟨middle, stepped, ran⟩ := Machine.run_cons.mp ran
    obtain ⟨shared, phase, -, rfl⟩ := machine_step.mp stepped
    rw [ih ran fun label member => absent label (List.mem_cons_of_mem _ member)]
    exact Function.update_of_ne (absent label List.mem_cons_self).symm _ _

theorem quiet_of_ended {labels : List Label} (ran : (machine codec).run (.initial shared) labels = some after)
    (ended : ∀ label ∈ labels, ∃ answer, after.calls label.call = .ended answer) : after.Quiet := by
  intro call
  by_cases present : ∃ label ∈ labels, label.call = call
  · obtain ⟨label, member, rfl⟩ := present
    exact .inr (ended label member)
  · push Not at present
    exact .inl (calls_run_of_ne ran present)

/-! ## A write between a read and its set -/

theorem setsCurrent_of_ne (other : ∀ now, label.act ≠ .cacheSet now) : label.SetsCurrent before :=
  fun now _ _ sets => absurd sets (other now)

def oneRow : Records.World where
  store := (Table.empty.insert? (Record.ofRequest reading freshOne)).getD Table.empty
  cache := .empty
  clock := 0

def readThenCommit : List Label :=
  [⟨0, .cacheGet 1 1⟩, ⟨0, .databaseRead⟩, ⟨1, .load (.process (january 10) (january 10)) 1⟩, ⟨1, .commit⟩]

def setBeforeClear : List Label := [⟨0, .cacheSet 2⟩, ⟨1, .refresh⟩, ⟨1, .cacheInvalidate⟩]

/-- A record is deleted between the database read of a GET and its cache set. -/
def lateSet : List Label :=
  [⟨0, .cacheGet 1 1⟩, ⟨0, .databaseRead⟩, ⟨1, .load .delete 1⟩, ⟨1, .commit⟩, ⟨1, .cacheInvalidate⟩,
    ⟨0, .cacheSet 2⟩]

theorem entryCurrent_oneRow : EntryCurrent codec oneRow recordId := by
  intro now text order held
  rw [show oneRow.cache = .empty from rfl, Expiring.get_empty] at held
  cases held

theorem setBeforeClear_meets : (machine sampleCodec).Every (.initial oneRow) (readThenCommit ++ setBeforeClear)
    fun _ before label _ => label.SetsCurrent before := by
  have others : ∀ label : Label, (∀ now, label.act ≠ .cacheSet now) → ∀ labels,
      ∀ before after, (machine sampleCodec).run (.initial oneRow) labels = some before →
        (machine sampleCodec).step before label = some after → label.SetsCurrent before :=
    fun _ other _ _ _ _ _ => setsCurrent_of_ne other
  rw [show readThenCommit ++ setBeforeClear = readThenCommit ++ [_] ++ [_] ++ [_] from rfl]
  simp only [Machine.every_concat]
  refine ⟨⟨⟨?_, ?_⟩, others _ (fun _ sets => by cases sets) _⟩, others _ (fun _ sets => by cases sets) _⟩
  · intro earlier label later before after split _ _
    apply setsCurrent_of_ne
    have never : ∀ label ∈ readThenCommit, ∀ now, label.act ≠ .cacheSet now := by simp [readThenCommit]
    exact never label (split ▸ List.mem_append_right _ List.mem_cons_self)
  · rintro before after ran - now recordId response - holds
    have waits : ((machine sampleCodec).run (.initial oneRow) readThenCommit).all fun world =>
        world.calls 1 = .committed 1 ∧ world.calls 0 = .read 1 sampleResponse ∧
          world.shared.store.find? 1 ≠ none := by decide +kernel
    rw [ran, Option.all_some] at waits
    obtain ⟨committed, read, present⟩ := of_decide_eq_true waits
    obtain ⟨rfl, -⟩ := Phase.read.inj (read.symm.trans holds)
    -- What is written is outdated, but the process request has yet to clear it.
    right
    refine ⟨1, ?_⟩
    rw [committed]
    exact ⟨rfl, present⟩

theorem set_before_clear_settled :
    ∃ world, (machine sampleCodec).run (.initial oneRow) (readThenCommit ++ setBeforeClear) = some world ∧
      world.Quiet ∧ (∀ recordId, EntryCurrent sampleCodec world.shared recordId) ∧
      Coherent sampleCodec world.shared := by
  have ends : ((machine sampleCodec).run (.initial oneRow) (readThenCommit ++ setBeforeClear)).any fun world =>
      world.calls 0 = .ended (.ok sampleResponse) ∧
        world.calls 1 = .ended (Records.processRecord oneRow 1 (january 10) (january 10)).2 := by decide +kernel
  obtain ⟨world, ran, ends⟩ := (Option.any_eq_true _ _).mp ends
  obtain ⟨reader, writer⟩ := of_decide_eq_true ends
  have quiet : world.Quiet := by
    apply quiet_of_ended ran
    simp only [readThenCommit, setBeforeClear, List.cons_append, List.nil_append, List.forall_mem_cons,
      List.not_mem_nil, false_implies, implies_true, and_true]
    exact ⟨⟨_, reader⟩, ⟨_, reader⟩, ⟨_, writer⟩, ⟨_, writer⟩, ⟨_, reader⟩, ⟨_, writer⟩, ⟨_, writer⟩⟩
  have settled := settled_of_sets_current sampleCodec sampleCodec_faithful oneRow (by decide +kernel)
    (fun _ => entryCurrent_oneRow) _ setBeforeClear_meets
  exact ⟨world, ran, quiet, settled _ [] world (List.append_nil _).symm ran quiet⟩

/-- The GET writes the deleted record after the entry was cleared, and later GETs serve it. -/
theorem late_set_serves_deleted :
    sampleCodec.Faithful ∧ (∀ recordId, EntryCurrent sampleCodec oneRow recordId) ∧
      ∃ world, (machine sampleCodec).run (.initial oneRow) lateSet = some world ∧ world.Quiet ∧
        (Records.getRecord sampleCodec world.shared 1 3 3).2 = .ok sampleResponse ∧
        answer world.shared.store 1 = notFound ∧ ¬ Settled sampleCodec world := by
  have ends : ((machine sampleCodec).run (.initial oneRow) lateSet).any fun world =>
      (Records.getRecord sampleCodec world.shared 1 3 3).2 = .ok sampleResponse ∧
        answer world.shared.store 1 = notFound ∧ world.shared.clock = 2 ∧
        world.calls 0 = .ended (.ok sampleResponse) ∧ world.calls 1 = .ended .noContent := by decide +kernel
  obtain ⟨world, ran, ends⟩ := (Option.any_eq_true _ _).mp ends
  obtain ⟨served, deleted, time, reader, deleter⟩ := of_decide_eq_true ends
  have quiet : world.Quiet := by
    apply quiet_of_ended ran
    simp only [lateSet, List.forall_mem_cons, List.not_mem_nil, false_implies, implies_true, and_true]
    exact ⟨⟨_, reader⟩, ⟨_, reader⟩, ⟨_, deleter⟩, ⟨_, deleter⟩, ⟨_, deleter⟩, ⟨_, reader⟩⟩
  refine ⟨sampleCodec_faithful, fun _ => entryCurrent_oneRow, world, ran, quiet, served, deleted, fun settled => ?_⟩
  have same := (settled quiet).2 1 3 3 (by rw [time]; decide)
  rw [served, deleted] at same
  cases same

end DataPipeline.Ingestor.CacheRace
