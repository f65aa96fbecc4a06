import DataPipeline.Ingestor.Records

/-! What `GET /records/{id}` answers next to what the row says. -/

set_option autoImplicit false

namespace DataPipeline.Ingestor.Records

open Calendar Execution

def current (store : Store) (recordId : Int) : Option RecordResponse :=
  (Ingestor.getRecord store recordId).map .modelValidate

def answer (store : Store) (recordId : Int) : Response :=
  match current store recordId with
  | some response => .ok response
  | none => notFound

/-- Whatever record is asked for next, the answer is what its row says. -/
def Coherent (codec : RecordCodec) (world : World) : Prop :=
  ∀ recordId started finished, world.clock ≤ started →
    (getRecord codec world recordId started finished).2 = answer world.store recordId

/-- The request changes what an active row says, at an endpoint that leaves the
cache as it is. -/
def Request.Outdates (request : Request) (store : Store) (recordId : Int) : Prop :=
  match request with
  | .update target body _ => target = recordId ∧ ∃ record, Ingestor.getRecord store recordId = some record ∧
      body.apply record ≠ record ∧
      ∀ other ∈ store.rows, other.key = (body.apply record).key → other.id = recordId
  | .archive target _ _ => target = recordId ∧ (Ingestor.getRecord store recordId).isSome = true
  | .archiveSecured session target _ _ => sessionRoleGuard ["writer", "admin"] session = none ∧
      target = recordId ∧ (Ingestor.getRecord store recordId).isSome = true
  | _ => False

/-- A record that the request outdates is not in the cache when it is finished. -/
def Exchange.KeepsCacheTrue (codec : RecordCodec) (before : World) (exchange : Exchange) : Prop :=
  refused codec before exchange = false → ∀ recordId, exchange.request.Outdates before.store recordId →
    Cache.getRecord codec before.cache exchange.finished recordId = none

/-- A record that the column of ids has room for is answered with what its row
says, whenever it is asked for next. -/
def Answered (codec : RecordCodec) (world : World) : Prop :=
  ∀ recordId started finished, FitsInteger recordId → world.clock ≤ started →
    (serve codec world ⟨.get recordId, started, finished⟩).2 = answer world.store recordId

variable {codec : RecordCodec} {store after : Store} {before world : World} {recordId : Int}
  {record old new : Record} {response : RecordResponse} {now updatedAt : DateTime} {body : UpdateRecordRequest}

/-! ## What rows say -/

theorem current_of_find? (same : after.find? recordId = store.find? recordId) :
    current after recordId = current store recordId := by
  unfold current Ingestor.getRecord
  rw [same]

theorem current_of_active (found : store.find? recordId = some record) (active : record.Active) :
    current store recordId = some (.modelValidate record) := by
  unfold current Ingestor.getRecord
  rw [found, Option.filter_some, if_pos (by simpa [Record.Active] using active), Option.map_some]

theorem current_of_archived (found : store.find? recordId = some record) (archived : ¬ record.Active) :
    current store recordId = none := by
  unfold current Ingestor.getRecord
  rw [found, Option.filter_some, if_neg (by simpa [Record.Active] using archived), Option.map_none]

theorem current_of_missing (missing : store.find? recordId = none) : current store recordId = none := by
  unfold current Ingestor.getRecord
  rw [missing, Option.filter_none, Option.map_none]

theorem coherent_iff :
    Coherent codec world ↔ ∀ recordId now response, world.clock ≤ now →
      Cache.getRecord codec world.cache now recordId = some response →
      current world.store recordId = some response := by
  constructor
  · intro coherent recordId now response order cached
    have same := coherent recordId now now order
    unfold getRecord answer at same
    rw [cached] at same
    cases row : current world.store recordId with
    | none => rw [row] at same; cases same
    | some content => rw [row] at same; cases same; rfl
  · intro agrees recordId started finished order
    unfold getRecord answer
    cases cached : Cache.getRecord codec world.cache started recordId with
    -- A hit is answered from the cache, so it must be what the row says.
    | some content => rw [agrees recordId started content order cached]
    | none =>
      unfold current
      cases Ingestor.getRecord world.store recordId <;> rfl

/-! ## What requests do -/

inductive Effect (codec : RecordCodec) (before : World) (outdates : Int → Prop) (finished : ℚ) (after : World) :
    Prop where
  | unchanged (harmless : ∀ id, ¬ outdates id)
      (rows : ∀ id, current after.store id = current before.store id) (cache : after.cache = before.cache)
  | inserted (recordId : Int) (harmless : ∀ id, ¬ outdates id) (absent : current before.store recordId = none)
      (others : ∀ id, recordId ≠ id → current after.store id = current before.store id)
      (cache : after.cache = before.cache)
  | filled (recordId : Int) (response : RecordResponse) (harmless : ∀ id, ¬ outdates id)
      (row : current before.store recordId = some response) (store : after.store = before.store)
      (cache : after.cache = Cache.setRecord codec before.cache finished recordId response Cache.cacheTtlRecord)
  | invalidated (recordId : Int) (harmless : ∀ id, ¬ outdates id)
      (others : ∀ id, recordId ≠ id → current after.store id = current before.store id)
      (cache : after.cache = Cache.invalidateRecord before.cache recordId)
  | outdated (recordId : Int) (only : ∀ id, outdates id ↔ recordId = id)
      (others : ∀ id, recordId ≠ id → current after.store id = current before.store id)
      (changed : current after.store recordId ≠ current before.store recordId) (cache : after.cache = before.cache)

theorem createRecord_effect (request : RecordRequest) (fresh : Fresh) (finished : ℚ)
    (new : fresh.id ∉ before.store.issued) :
    Effect codec before ((Request.create request fresh).Outdates before.store) finished
      (createRecord before request fresh).1 := by
  unfold createRecord
  split
  next => exact .unchanged (fun _ outdates => outdates) (fun _ => rfl) rfl
  next after record created =>
    obtain ⟨rfl, inserted⟩ := createRecord_eq_some created
    refine .inserted fresh.id (fun _ outdates => outdates) ?_ ?_ rfl
    · apply current_of_missing
      -- A row with the new id would have been given that id before.
      by_contra present
      obtain ⟨old, found⟩ := Option.ne_none_iff_exists'.mp present
      obtain ⟨member, same⟩ := Table.find?_eq_some_iff.mp found
      exact new (same ▸ before.store.ids_issued old member)
    · intro id different
      apply current_of_find?
      rw [Table.find?_insert? inserted, Record.id_ofRequest, if_neg different]

theorem getRecord_effect (started finished : ℚ) :
    Effect codec before ((Request.get recordId).Outdates before.store) finished
      (getRecord codec before recordId started finished).1 := by
  unfold getRecord
  split
  next => exact .unchanged (fun _ outdates => outdates) (fun _ => rfl) rfl
  next =>
    split
    next => exact .unchanged (fun _ outdates => outdates) (fun _ => rfl) rfl
    next record found =>
      refine .filled recordId (.modelValidate record) (fun _ outdates => outdates) ?_ rfl rfl
      unfold current
      rw [found, Option.map_some]

theorem getRecord_of_active (found : store.find? recordId = some record) (active : record.Active) :
    Ingestor.getRecord store recordId = some record :=
  have ⟨member, same⟩ := Table.find?_eq_some_iff.mp found
  getRecord_eq_some_iff.mpr ⟨member, same, active⟩

theorem find?_of_getRecord (found : Ingestor.getRecord store recordId = some record) :
    store.find? recordId = some record ∧ record.Active :=
  have ⟨member, same, active⟩ := getRecord_eq_some_iff.mp found
  ⟨Table.find?_eq_some_iff.mpr ⟨member, same⟩, active⟩

theorem current_written (rows : ∀ id, after.find? id = if recordId = id then some record else store.find? id) :
    after.find? recordId = some record ∧ ∀ id, recordId ≠ id → current after id = current store id := by
  refine ⟨by rw [rows, if_pos rfl], fun id different => ?_⟩
  apply current_of_find?
  rw [rows, if_neg different]

theorem processRecord_effect (now updatedAt : DateTime) (finished : ℚ) :
    Effect codec before ((Request.process recordId now updatedAt).Outdates before.store) finished
      (processRecord before recordId now updatedAt).1 := by
  have harmless : ∀ id, ¬ (Request.process recordId now updatedAt).Outdates before.store id :=
    fun _ outdates => outdates
  cases found : before.store.find? recordId with
  | none =>
    simp only [processRecord, markProcessed, found]
    exact .unchanged harmless (fun _ => rfl) rfl
  | some old =>
    let marked : Record := { old with processed := true, processedAt := old.processedAt.or (some now) }
    have markedId : marked.id = old.id := rfl
    rcases writeBack_outcomes updatedAt found markedId with
      ⟨-, wrote⟩ | ⟨-, -, wrote⟩ | ⟨-, -, after, wrote, rows⟩ <;>
      simp only [processRecord, markProcessed, found, marked, wrote, Option.map_some, Option.map_none]
    · exact .invalidated recordId harmless (fun _ _ => rfl) rfl
    · exact .unchanged harmless (fun _ => rfl) rfl
    · exact .invalidated recordId harmless (current_written rows).2 rfl

theorem deleteRecord_effect {outdates : Int → Prop} (harmless : ∀ id, ¬ outdates id) (finished : ℚ) :
    Effect codec before outdates finished (deleteRecord before recordId).1 := by
  unfold deleteRecord Ingestor.deleteRecord
  cases found : before.store.find? recordId with
  | none => exact .unchanged harmless (fun _ => rfl) rfl
  | some old =>
    refine .invalidated recordId harmless ?_ rfl
    intro id different
    apply current_of_find?
    rw [Table.find?_erase, if_neg different]

theorem modelValidate_apply (changes : body.apply record ≠ record) :
    RecordResponse.modelValidate { body.apply record with updatedAt := some updatedAt } ≠ .modelValidate record := by
  intro same
  apply changes
  unfold RecordResponse.modelValidate at same
  injection same with _ source timestamp rawData tags
  unfold UpdateRecordRequest.apply at source timestamp rawData tags ⊢
  simp only at source timestamp rawData tags
  rw [source, timestamp, rawData, tags]

theorem updateRecord_effect (body : UpdateRecordRequest) (updatedAt : DateTime) (finished : ℚ) :
    Effect codec before ((Request.update recordId body updatedAt).Outdates before.store) finished
      (updateRecordEndpoint before recordId body updatedAt).1 := by
  cases found : before.store.find? recordId with
  | none =>
    simp only [updateRecordEndpoint, updateRecord, found]
    refine .unchanged ?_ (fun _ => rfl) rfl
    rintro id ⟨rfl, record, active, -⟩
    rw [(find?_of_getRecord active).1] at found
    cases found
  | some old =>
    -- A record that the update outdates is the one found here, and active.
    have isOld : ∀ id record, recordId = id → Ingestor.getRecord before.store id = some record →
        record = old ∧ old.Active := by
      rintro id record rfl active
      obtain ⟨again, active⟩ := find?_of_getRecord active
      cases found.symm.trans again
      exact ⟨rfl, active⟩
    have appliedId : (body.apply old).id = old.id := rfl
    rcases writeBack_outcomes updatedAt found appliedId with
      ⟨same, wrote⟩ | ⟨-, taken, wrote⟩ | ⟨different, free, after, wrote, rows⟩ <;>
      simp only [updateRecordEndpoint, updateRecord, found, wrote, Option.map_some, Option.map_none]
    · refine .unchanged ?_ (fun _ => rfl) rfl
      rintro id ⟨here, record, active, changes, -⟩
      rw [(isOld id record here active).1] at changes
      exact changes same
    · refine .unchanged ?_ (fun _ => rfl) rfl
      rintro id ⟨rfl, record, active, -, unique⟩
      obtain ⟨other, member, sameKey, otherId⟩ := taken
      rw [(isOld recordId record rfl active).1] at unique
      exact otherId (unique other member sameKey)
    · obtain ⟨written, others⟩ := current_written rows
      -- An archived row may change too, but it says nothing before or after.
      by_cases active : old.Active
      · refine .outdated recordId ?_ others ?_ rfl
        · intro id
          refine ⟨fun outdates => outdates.1, ?_⟩
          rintro rfl
          exact ⟨rfl, old, getRecord_of_active found active, different, free⟩
        · rw [current_of_active written active, current_of_active found active]
          exact fun equal => modelValidate_apply different (Option.some.inj equal)
      · refine .unchanged ?_ ?_ rfl
        · rintro id ⟨here, record, found, -⟩
          exact active (isOld id record here found).2
        · intro id
          by_cases here : recordId = id
          · rw [← here, current_of_archived written active, current_of_archived found active]
          · exact others id here

theorem archiveRecord_effect (now updatedAt : DateTime) (finished : ℚ) :
    Effect codec before ((Request.archive recordId now updatedAt).Outdates before.store) finished
      (archiveRecord before recordId now updatedAt).1 := by
  have missing : Ingestor.getRecord before.store recordId = none →
      ∀ id, ¬ (Request.archive recordId now updatedAt).Outdates before.store id := by
    rintro none id ⟨rfl, some⟩
    rw [none] at some
    cases some
  cases found : before.store.find? recordId with
  | none =>
    simp only [archiveRecord, softDeleteRecord, found]
    refine .unchanged (missing ?_) (fun _ => rfl) rfl
    unfold Ingestor.getRecord
    rw [found, Option.filter_none]
  | some old =>
    obtain ⟨member, own⟩ := Table.find?_eq_some_iff.mp found
    by_cases active : old.deletedAt = none
    -- Setting `deleted_at` always changes an active row.
    · let archived : Record := { old with deletedAt := some now }
      have archivedId : archived.id = old.id := rfl
      rcases writeBack_outcomes updatedAt found archivedId with
        ⟨same, -⟩ | ⟨-, ⟨other, otherMember, sameKey, otherId⟩, -⟩ | ⟨-, -, after, wrote, rows⟩
      · rw [← same] at active
        cases active
      · -- The key is that of the row itself, so no other row can have it.
        exact absurd ((congrArg Record.id (Table.eq_of_key otherMember member sameKey)).trans own) otherId
      · simp only [archiveRecord, softDeleteRecord, found, active, archived, wrote, Option.map_some, ↓reduceIte]
        obtain ⟨written, others⟩ := current_written rows
        refine .outdated recordId ?_ others ?_ rfl
        · intro id
          refine ⟨fun outdates => outdates.1, ?_⟩
          rintro rfl
          exact ⟨rfl, by rw [getRecord_of_active found active]; rfl⟩
        · rw [current_of_archived written (fun shown => by cases shown), current_of_active found active]
          exact (Option.some_ne_none _).symm
    · simp only [archiveRecord, softDeleteRecord, found, active, ↓reduceIte]
      refine .unchanged (missing ?_) (fun _ => rfl) rfl
      unfold Ingestor.getRecord
      rw [found, Option.filter_some, if_neg (by simpa using active)]

theorem handle_effect (exchange : Exchange) (possible : exchange.request.Possible before.store) :
    Effect codec before (exchange.request.Outdates before.store) exchange.finished
      (handle codec before exchange).1 := by
  obtain ⟨request, started, finished⟩ := exchange
  unfold handle
  cases request with
  | create body fresh => exact createRecord_effect body fresh finished possible
  | get recordId => exact getRecord_effect started finished
  | update recordId body updatedAt => exact updateRecord_effect body updatedAt finished
  | process recordId now updatedAt => exact processRecord_effect now updatedAt finished
  | archive recordId now updatedAt => exact archiveRecord_effect now updatedAt finished
  | delete recordId => exact deleteRecord_effect (fun _ outdates => outdates) finished
  | archiveSecured session recordId now updatedAt =>
    simp only [archiveRecordSecured]
    split
    next refused guard =>
      refine .unchanged ?_ (fun _ => rfl) rfl
      rintro id ⟨permitted, -⟩
      rw [guard] at permitted
      cases permitted
    next permitted =>
      have same : (Request.archiveSecured session recordId now updatedAt).Outdates before.store =
          (Request.archive recordId now updatedAt).Outdates before.store := by
        funext id
        simp only [Request.Outdates, permitted, true_and]
      rw [same]
      exact archiveRecord_effect now updatedAt finished
  | deleteSecured session recordId =>
    simp only [deleteRecordSecured]
    split
    next => exact .unchanged (fun _ outdates => outdates) (fun _ => rfl) rfl
    next => exact deleteRecord_effect (fun _ outdates => outdates) finished

/-! ## Rows fit their columns -/

def StandardRows (store : Store) : Prop :=
  ∀ id record, store.find? id = some record → (RecordResponse.modelValidate record).Standard

theorem standard_erase (standard : StandardRows store) : StandardRows (store.erase recordId) := by
  intro id record found
  rw [Table.find?_erase] at found
  split at found
  · cases found
  · exact standard id record found

def FitRows (store : Store) : Prop := ∀ id record, store.find? id = some record → record.fits = true

theorem FitRows.standard (fit : FitRows store) : StandardRows store := by
  intro id record found
  have fits := fit id record found
  simp only [Record.fits, fitsJson, Bool.and_eq_true] at fits
  exact fits.2.1

theorem FitRows.createRecord {request : RecordRequest} {fresh : Fresh} (fit : FitRows store)
    (fits : request.fits = true)
    (created : Ingestor.createRecord store request fresh = some (after, record)) : FitRows after := by
  obtain ⟨rfl, inserted⟩ := createRecord_eq_some created
  intro id other found
  rw [Table.find?_insert? inserted] at found
  split at found
  · cases found
    exact fits
  · exact fit id other found

theorem FitRows.writeBack (fit : FitRows store) (found : store.find? recordId = some old)
    (wrote : writeBack store old new updatedAt = some (after, record)) (sameId : new.id = old.id)
    (fits : new.fits = true) : FitRows after := by
  rcases writeBack_outcomes updatedAt found sameId with
    ⟨-, kept⟩ | ⟨-, -, failed⟩ | ⟨-, -, written, done, rows⟩
  · cases kept.symm.trans wrote
    exact fit
  · cases failed.symm.trans wrote
  · cases done.symm.trans wrote
    intro id other foundAfter
    rw [rows] at foundAfter
    split at foundAfter
    · cases foundAfter
      exact fits
    · exact fit id other foundAfter

theorem FitRows.markProcessed {result : Option Record} (fit : FitRows store)
    (marked : markProcessed store recordId now updatedAt = some (after, result)) : FitRows after := by
  rcases markProcessed_cases marked with ⟨rfl, -⟩ | ⟨old, written, found, wrote, -⟩
  · exact fit
  · exact fit.writeBack found wrote rfl (fit recordId old found)

theorem FitRows.softDeleteRecord {result : Option Record} (fit : FitRows store)
    (archived : softDeleteRecord store recordId now updatedAt = some (after, result)) : FitRows after := by
  rcases softDeleteRecord_cases archived with ⟨rfl, -⟩ | ⟨old, written, found, -, wrote, -⟩
  · exact fit
  · exact fit.writeBack found wrote rfl (fit recordId old found)

theorem FitRows.archiveRecord (fit : FitRows before.store) (recordId : Int) (now updatedAt : DateTime) :
    FitRows (archiveRecord before recordId now updatedAt).1.store := by
  unfold Records.archiveRecord
  split <;> [exact fit; exact fit.softDeleteRecord ‹_›; exact fit.softDeleteRecord ‹_›]

theorem FitRows.deleteRecord (fit : FitRows before.store) (recordId : Int) :
    FitRows (deleteRecord before recordId).1.store := by
  unfold Records.deleteRecord Ingestor.deleteRecord
  cases before.store.find? recordId with
  | none => exact fit
  | some record =>
    intro id other found
    simp only [Table.find?_erase] at found
    split at found
    · cases found
    · exact fit id other found

/-- The driver lets nothing into a row that does not fit. -/
theorem FitRows.serve (fit : FitRows before.store) (exchange : Exchange) :
    FitRows (serve codec before exchange).1.store := by
  unfold Records.serve
  split
  next => exact fit
  next accepted =>
    obtain ⟨request, started, finished⟩ := exchange
    unfold handle
    cases request with
    | create body fresh =>
      simp only [refused, Bool.not_eq_true, Bool.not_eq_false'] at accepted
      simp only [Records.createRecord]
      split <;> [exact fit; exact fit.createRecord accepted ‹_›]
    | get recordId =>
      simp only [getRecord]
      split <;> [exact fit; (split <;> exact fit)]
    | update recordId body updatedAt =>
      simp only [refused, Bool.or_eq_true, not_or, Bool.not_eq_true] at accepted
      have written {after : Store} {result : Option Record}
          (updated : updateRecord before.store recordId body updatedAt = some (after, result)) : FitRows after := by
        rcases updateRecord_cases updated with ⟨rfl, -⟩ | ⟨old, written, found, wrote, -⟩
        · exact fit
        · refine fit.writeBack found wrote rfl ?_
          have fits := accepted.2
          rw [found] at fits
          simpa using fits
      simp only [updateRecordEndpoint]
      split <;> [exact fit; exact written ‹_›; exact written ‹_›]
    | process recordId now updatedAt =>
      simp only [processRecord]
      split <;> [exact fit; exact fit.markProcessed ‹_›; exact fit.markProcessed ‹_›]
    | archive recordId now updatedAt => exact fit.archiveRecord recordId now updatedAt
    | delete recordId => exact fit.deleteRecord recordId
    | archiveSecured session recordId now updatedAt =>
      simp only [archiveRecordSecured]
      split <;> [exact fit; exact fit.archiveRecord recordId now updatedAt]
    | deleteSecured session recordId =>
      simp only [deleteRecordSecured]
      split <;> [exact fit; exact fit.deleteRecord recordId]

/-! ## Coherence -/

theorem standard_current (standard : StandardRows store) (row : current store recordId = some response) :
    response.Standard := by
  obtain ⟨record, found, rfl⟩ := Option.map_eq_some_iff.mp row
  exact standard recordId record (find?_of_getRecord found).1

/-- From a coherent state, a handler leads to a coherent state exactly if no
record that the request outdates is in the cache. -/
theorem coherent_handle {exchange : Exchange} (faithful : codec.Faithful) (standard : StandardRows before.store)
    (coherent : Coherent codec before) (order : before.clock ≤ exchange.finished)
    (possible : exchange.request.Possible before.store) :
    Coherent codec { (handle codec before exchange).1 with clock := exchange.finished } ↔
      ∀ id, exchange.request.Outdates before.store id →
        Cache.getRecord codec before.cache exchange.finished id = none := by
  have said : ∀ id now response, exchange.finished ≤ now →
      Cache.getRecord codec before.cache now id = some response → current before.store id = some response :=
    fun id now response later => coherent_iff.mp coherent id now response (order.trans later)
  rw [coherent_iff]
  rcases handle_effect exchange possible with
    ⟨harmless, rows, cache⟩ | ⟨new, harmless, absent, others, cache⟩ |
    ⟨asked, response, harmless, row, store, cache⟩ |
    ⟨target, harmless, others, cache⟩ | ⟨target, only, others, changed, cache⟩
  case unchanged =>
    refine ⟨fun _ id outdates => absurd outdates (harmless id), fun _ id now response order cached => ?_⟩
    rw [cache] at cached
    exact (rows id).trans (said id now response order cached)
  case inserted =>
    refine ⟨fun _ id outdates => absurd outdates (harmless id), fun _ id now response order cached => ?_⟩
    rw [cache] at cached
    -- Nothing is cached for an id that had no row.
    have row := said id now response order cached
    have different : new ≠ id := by
      rintro rfl
      cases absent.symm.trans row
    exact (others id different).trans row
  case filled =>
    refine ⟨fun _ id outdates => absurd outdates (harmless id), fun _ id now found order cached => ?_⟩
    rw [cache] at cached
    simp only [store]
    -- The entry that was written is what the row says; the others are as before.
    rcases Cache.getRecord_setRecord faithful (standard_current standard row) cached with ⟨rfl, rfl⟩ | earlier
    · exact row
    · exact said id now found order earlier
  case invalidated =>
    refine ⟨fun _ id outdates => absurd outdates (harmless id), fun _ id now response order cached => ?_⟩
    rw [cache, Cache.getRecord_invalidateRecord] at cached
    split at cached
    next => cases cached
    next different => exact (others id (Ne.symm different)).trans (said id now response order cached)
  case outdated =>
    constructor
    · intro agrees id outdates
      obtain rfl := (only id).mp outdates
      by_contra cached
      obtain ⟨response, cached⟩ := Option.ne_none_iff_exists'.mp cached
      -- The entry agrees with the row before and after, but the row has changed.
      have old := said target exchange.finished response le_rfl cached
      have new := agrees target exchange.finished response le_rfl (by rw [cache, cached])
      exact changed (new.trans old.symm)
    · intro keeps id now response order cached
      rw [cache] at cached
      by_cases here : target = id
      -- What is not in the cache when the request ends is not there later either.
      · have missing := keeps id ((only id).mpr here)
        have found := Cache.getRecord_of_later order cached
        cases missing.symm.trans found
      · exact (others id here).trans (said id now response order cached)

theorem serve_of_refused {exchange : Exchange} (refuses : refused codec before exchange = true) :
    serve codec before exchange = (before, .internalServerError) := if_pos refuses

theorem serve_of_accepted {exchange : Exchange} (accepted : refused codec before exchange = false) :
    serve codec before exchange = ((handle codec before exchange).1, rendered (handle codec before exchange).2) :=
  if_neg (by simp [accepted])

/-- A request that the driver refuses outdates nothing. -/
theorem coherent_step {exchange : Exchange} {afterwards : World} (faithful : codec.Faithful)
    (standard : StandardRows before.store) (coherent : Coherent codec before)
    (stepped : (machine codec).step before exchange = some afterwards) :
    Coherent codec afterwards ↔ exchange.KeepsCacheTrue codec before := by
  obtain ⟨⟨arrives, finishes, possible⟩, rfl⟩ := machine_step.mp stepped
  cases refuses : refused codec before exchange with
  | true =>
    rw [serve_of_refused refuses]
    refine iff_of_true ?_ fun accepted => by rw [refuses] at accepted; cases accepted
    rw [coherent_iff]
    intro recordId now response later
    exact coherent_iff.mp coherent recordId now response ((arrives.trans finishes).trans later)
  | false =>
    rw [serve_of_accepted refuses]
    refine (coherent_handle faithful standard coherent (arrives.trans finishes) possible).trans ?_
    exact ⟨fun keeps _ => keeps, fun keeps => keeps refuses⟩

/-! ## Answers over the wire -/

/-- Rows fit their columns, and ids that do not are not in the cache. -/
structure Held (codec : RecordCodec) (world : World) : Prop where
  fit : FitRows world.store
  none : ∀ recordId now, ¬ FitsInteger recordId → Cache.getRecord codec world.cache now recordId = none

theorem fitsInteger_of_current (row : current store recordId = some response) : FitsInteger recordId := by
  obtain ⟨record, found, -⟩ := Option.map_eq_some_iff.mp row
  obtain ⟨-, rfl, -⟩ := getRecord_eq_some_iff.mp found
  exact record.id_fits

theorem Held.step {exchange : Exchange} {afterwards : World} (faithful : codec.Faithful) (held : Held codec before)
    (stepped : (machine codec).step before exchange = some afterwards) : Held codec afterwards := by
  obtain ⟨⟨-, -, possible⟩, rfl⟩ := machine_step.mp stepped
  refine ⟨held.fit.serve exchange, fun id now large => ?_⟩
  cases refuses : refused codec before exchange with
  | true =>
    rw [serve_of_refused refuses]
    exact held.none id now large
  | false =>
    rw [serve_of_accepted refuses]
    have effect : Effect codec before (exchange.request.Outdates before.store) exchange.finished
        (handle codec before exchange).1 := handle_effect exchange possible
    rcases effect with ⟨-, -, cache⟩ | ⟨-, -, -, -, cache⟩ | ⟨asked, response, -, row, -, cache⟩ |
      ⟨target, -, -, cache⟩ | ⟨-, -, -, -, cache⟩ <;> simp only [cache]
    case filled =>
      by_contra cached
      obtain ⟨found, cached⟩ := Option.ne_none_iff_exists'.mp cached
      rcases Cache.getRecord_setRecord faithful (standard_current held.fit.standard row) cached with
        ⟨rfl, -⟩ | earlier
      · exact large (fitsInteger_of_current row)
      · rw [held.none id now large] at earlier
        cases earlier
    case invalidated =>
      rw [Cache.getRecord_invalidateRecord, held.none id now large, ite_self]
    all_goals exact held.none id now large

def sampleResponse : RecordResponse := .modelValidate (.ofRequest reading freshOne)

def sampleText : String :=
  "\x7b\"id\":1,\"source\":\"sensor\",\"timestamp\":\"2026-01-01T08:00:00\",\"raw_data\":\x7b\x7d,\"tags\":[]," ++
    "\"processed\":false,\"created_at\":\"2026-01-01T09:00:00\",\"updated_at\":\"2026-01-01T09:00:00\"," ++
    "\"deleted_at\":null\x7d"

def sampleCodec : RecordCodec where
  modelDumpJson response := if response = sampleResponse then some sampleText else none
  modelValidateJson text := if text = sampleText then some sampleResponse else none

theorem sampleCodec_faithful : sampleCodec.Faithful := by
  intro response text other _ dumped read
  obtain ⟨rfl, -⟩ := Option.ite_none_right_eq_some.mp dumped
  obtain ⟨-, same⟩ := Option.ite_none_right_eq_some.mp read
  exact (Option.some.inj same).symm

end DataPipeline.Ingestor.Records
