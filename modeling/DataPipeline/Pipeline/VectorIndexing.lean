import DataPipeline.AiGateway.Indexing
import DataPipeline.Ingestor.Archived

/-! The indexing of records for vector search: `ingestor/vector_search.py`, the
routes of `ingestor/routers/vector_search.py` that index, and the gateway.

A request reads its rows, is handled by the gateway and is answered in steps of
its own, between which records may change and other requests may go on. What it
sends is read by the gateway as it was written.
-/

set_option autoImplicit false

namespace DataPipeline.Pipeline.VectorIndexing

open Encoding Execution Ingestor AiGateway

/-! ## Documents -/

mutual

/-- The value with the entries of its objects in the order of their keys. -/
def sortKeys : Json → Json
  | .null => .null
  | .bool value => .bool value
  | .int value => .int value
  | .float value => .float value
  | .str value => .str value
  | .list items => .list (sortItems items)
  | .dict entries => .dict ((sortEntries entries).insertionSort fun first second => first.1 ≤ second.1)

def sortItems : List Json → List Json
  | [] => []
  | item :: rest => sortKeys item :: sortItems rest

def sortEntries : List (Text × Json) → List (Text × Json)
  | [] => []
  | (key, value) :: rest => (key, sortKeys value) :: sortEntries rest

end

-- How a float is written.
variable (repr : Double → Text)

def searchText (record : Record) : Text :=
  let rawDataJson := Json.dumps repr (sortKeys (.dict record.rawData))
  let tagsText := List.intercalate (Text.ofString ", ") (record.tags.map Text.ofString)
  List.intercalate [10]
    [Text.ofString "source: " ++ Text.ofString record.source,
      Text.ofString "timestamp: " ++ record.timestamp.isoformat,
      Text.ofString "tags: " ++ tagsText,
      Text.ofString "data: " ++ rawDataJson]

def searchMetadata (record : Record) : List (Text × Json) :=
  [(Text.ofString "source", .str (Text.ofString record.source)),
    (Text.ofString "timestamp", .str record.timestamp.isoformat),
    (Text.ofString "tags", .list (record.tags.map fun tag => .str (Text.ofString tag))),
    (Text.ofString "processed", .bool record.processed)]

def buildRecordSearchDocument (record : Record) : List (Text × Json) :=
  [(Text.ofString "id", .int record.id), (Text.ofString "text", .str (searchText repr record)),
    (Text.ofString "metadata", .dict (searchMetadata record))]

/-! ## Requests -/

/-- The bodies of `/index/records` and `/index/recent`. The database gives rows
of one timestamp in the order in which it happens to scan them. -/
inductive Request where
  | records (recordIds : List Int) (collection : Option String)
  | recent (source : Option String) (limit : Nat) (collection : Option String) (scanned : List Record)

def maxRecordIds : Nat := 100

/-- `list(dict.fromkeys(...))` -/
def fromkeys (recordIds : List Int) : List Int := recordIds.reverse.dedup.reverse

/-- The request is validated, and a scan goes through all rows. -/
def Request.Valid (store : Store) : Request → Prop
  | .records recordIds _ => recordIds ≠ [] ∧ recordIds.length ≤ maxRecordIds
  | .recent source limit _ scanned => source ≠ some "" ∧ 1 ≤ limit ∧ limit ≤ maxRecordIds ∧ scanned.Perm store.rows

instance (store : Store) (request : Request) : Decidable (request.Valid store) := by
  cases request <;> unfold Request.Valid <;> infer_instance

def Request.rows (store : Store) : Request → List Record
  | .records recordIds _ =>
    (store.rows.filter fun record => record.id ∈ fromkeys recordIds ∧ record.Active).insertionSort
      fun first second => first.id ≤ second.id
  | .recent source limit _ scanned =>
    ((scanned.filter fun record => record.Active ∧ ∀ given ∈ source, record.source = given).insertionSort
      fun first second => second.timestamp ≤ first.timestamp).take limit

/-- `requested_count` and `missing_record_ids` of the answer. -/
def Request.requested (store : Store) : Request → Nat
  | .records recordIds _ => (fromkeys recordIds).length
  | request => (request.rows store).length

def Request.missing (store : Store) : Request → List Int
  | .records recordIds collection =>
    let foundIds := ((Request.records recordIds collection).rows store).map Record.id
    (fromkeys recordIds).filter fun recordId => recordId ∉ foundIds
  | .recent .. => []

def Request.collection : Request → Option String
  | .records _ collection => collection
  | .recent _ _ collection _ => collection

def Request.failure : Request → String
  | .records .. => "AI gateway indexing failed"
  | .recent .. => "AI gateway recent indexing failed"

inductive Response where
  | indexed (requestedCount indexedCount : Nat) (missingRecordIds : List Int) (collection : String)
  | httpException (statusCode : Nat) (detail : String)
  deriving DecidableEq

/-- A request that has read its rows, with the reply of the gateway once it has
handled it, and whether it has been answered. -/
structure Task where
  rows : List Record
  requested : Nat
  missing : List Int
  collection : String
  failure : String
  reply : Option IndexReply
  answered : Bool

/-- `collection or settings.vector_search_collection` -/
def collectionName (defaultCollection : String) (collection : Option String) : String :=
  match collection with
  | none | some "" => defaultCollection
  | some name => name

/-- What a request reads; without rows it is answered with a 404 and sends nothing. -/
def Request.task (defaultCollection : String) (store : Store) (request : Request) : Option Task :=
  let rows := request.rows store
  if rows = [] then none
  else
    some ⟨rows, request.requested store, request.missing store,
      collectionName defaultCollection request.collection, request.failure, none, false⟩

def Task.request (task : Task) : IndexRequest := ⟨task.rows.map (buildRecordSearchDocument repr), task.collection⟩

def Task.response (task : Task) (lost : Bool) : Response :=
  match task.reply, lost with
  | some (.indexed indexedCount collection), false =>
    .indexed task.requested indexedCount task.missing collection
  | _, _ => .httpException 502 task.failure

/-! ## Runs -/

structure World (State Component : Type) where
  store : Store
  gateway : Gateway State Component
  tasks : Nat → Option Task

inductive Label where
  | write (call : CrudCall)
  | embed (request : EmbedRequest)
  | read (number : Nat) (request : Request)
  | deliver (number : Nat) (raises : Text → Bool)
  | answer (number : Nat) (lost : Bool)

variable {State Component : Type} (qdrant : Qdrant State Component) (encode : Text → Embedding Component)
  (defaultCollection : String) (depth : Nat)

/-- The gateway may handle a request late or never, and handles none twice. -/
def machine : Machine (World State Component) Label where
  step
    | world, .write call => ((crudMachine depth).step world.store call).map fun store => { world with store }
    | world, .embed request =>
      some { world with gateway.cache := (request.answer encode world.gateway.cache).1 }
    | world, .read number request =>
      if request.Valid world.store ∧ world.tasks number = none then
        some { world with tasks := Function.update world.tasks number (request.task defaultCollection world.store) }
      else none
    | world, .deliver number raises =>
      (world.tasks number).bind fun task =>
        if task.reply = none then
          let (gateway, reply) := index qdrant encode world.gateway (task.request repr) raises
          some { world with
            gateway
            tasks := Function.update world.tasks number (some { task with reply := some reply }) }
        else none
    | world, .answer number _ =>
      (world.tasks number).bind fun task =>
        if task.answered = false then
          some { world with tasks := Function.update world.tasks number (some { task with answered := true }) }
        else none

/-! ## Points -/

def recordPoint (record : Record) : Point Component :=
  ⟨record.id, encode (searchText repr record),
    (Text.ofString "text", .str (searchText repr record)) :: searchMetadata record⟩

variable {repr qdrant encode defaultCollection depth}

@[simp] theorem recordPoint_id (record : Record) : (recordPoint repr encode record).id = record.id := rfl

theorem pointOf_record (record : Record) :
    pointOf encode (buildRecordSearchDocument repr record) = some (recordPoint repr encode record) := by
  have text : documentText (buildRecordSearchDocument repr record) = some (searchText repr record) := by
    simp [documentText, buildRecordSearchDocument, List.lookup_cons, Text.ofString]
  rw [pointOf, text, Option.bind_some, documentPoint, text]
  simp [buildRecordSearchDocument, List.lookup_cons, Text.ofString, Json.merge, Json.assign, searchMetadata, recordPoint]

theorem points_of_records (rows : List Record) :
    (rows.map (buildRecordSearchDocument repr)).mapM (pointOf encode) = some (rows.map (recordPoint repr encode)) := by
  induction rows with
  | nil => rfl
  | cons record rows ih =>
    rw [List.map_cons, List.mapM_cons, pointOf_record, ih]
    rfl

/-! ## What a request reads -/

variable {store : Store} {request : Request} {record : Record}

theorem Request.active (valid : request.Valid store) (member : record ∈ request.rows store) :
    record ∈ store.rows ∧ record.Active := by
  cases request with
  | records recordIds collection =>
    rw [Request.rows, List.mem_insertionSort, List.mem_filter, decide_eq_true_eq] at member
    exact ⟨member.1, member.2.2⟩
  | recent source limit collection scanned =>
    have inside := List.mem_of_mem_take member
    rw [List.mem_insertionSort, List.mem_filter, decide_eq_true_eq] at inside
    exact ⟨valid.2.2.2.mem_iff.mp inside.1, inside.2.1⟩

theorem Request.distinct (valid : request.Valid store) : ((request.rows store).map Record.id).Nodup := by
  cases request with
  | records recordIds collection =>
    have perm := (List.perm_insertionSort (fun first second : Record => first.id ≤ second.id)
      (store.rows.filter fun record => record.id ∈ fromkeys recordIds ∧ record.Active)).map Record.id
    exact perm.nodup_iff.mpr ((List.filter_sublist.map Record.id).nodup store.ids_nodup)
  | recent source limit collection scanned =>
    have ids : (scanned.map Record.id).Nodup := (valid.2.2.2.map Record.id).nodup_iff.mpr store.ids_nodup
    have perm := (List.perm_insertionSort (fun first second : Record => second.timestamp ≤ first.timestamp)
      (scanned.filter fun record => record.Active ∧ ∀ given ∈ source, record.source = given)).map Record.id
    exact ((List.take_sublist _ _).map Record.id).nodup
      (perm.nodup_iff.mpr ((List.filter_sublist.map Record.id).nodup ids))

theorem fromkeys_nodup (recordIds : List Int) : (fromkeys recordIds).Nodup :=
  List.nodup_reverse.mpr (List.nodup_dedup _)

theorem fromkeys_length_le (recordIds : List Int) : (fromkeys recordIds).length ≤ recordIds.length := by
  rw [fromkeys, List.length_reverse]
  exact (List.dedup_sublist _).length_le.trans_eq List.length_reverse

theorem Request.requested_eq (valid : request.Valid store) :
    request.requested store = (request.rows store).length + (request.missing store).length := by
  cases request with
  | recent => rfl
  | records recordIds collection =>
    rw [Request.requested, Request.missing]
    have distinct := Request.distinct valid
    generalize shape : (Request.records recordIds collection).rows store = rows at distinct
    have inside : ∀ id ∈ rows.map Record.id, id ∈ fromkeys recordIds := by
      rintro _ named
      obtain ⟨record, member, rfl⟩ := List.mem_map.mp named
      rw [← shape, Request.rows, List.mem_insertionSort, List.mem_filter, decide_eq_true_eq] at member
      exact member.2.1
    have sent : ((fromkeys recordIds).filter fun id => id ∈ rows.map Record.id).Perm (rows.map Record.id) := by
      refine (List.perm_ext_iff_of_nodup ((fromkeys_nodup recordIds).filter _) distinct).mpr fun id => ?_
      rw [List.mem_filter, decide_eq_true_eq, and_iff_right_of_imp (inside id)]
    rw [List.length_eq_length_filter_add fun id => decide (id ∈ rows.map Record.id), sent.length_eq, List.length_map]
    simp only [decide_not]

theorem Request.length_rows_le (valid : request.Valid store) : (request.rows store).length ≤ maxRecordIds := by
  cases request with
  | records recordIds collection =>
    have requested := Request.requested_eq valid
    have few := (fromkeys_length_le recordIds).trans valid.2
    rw [Request.requested] at requested
    omega
  | recent source limit collection scanned => exact (List.length_take_le _ _).trans valid.2.2.1

/-! ## What is in the collections -/

variable {start before after world : World State Component} {labels : List Label} {label : Label}
  {collection : String} {task : Task}

def Sent (machine : Machine (World State Component) Label) (defaultCollection : String)
    (start : World State Component) (labels : List Label) (collection : String) (record : Record) : Prop :=
  ∃ earlier number request later before, labels = earlier ++ .read number request :: later ∧
    machine.run start earlier = some before ∧ request.Valid before.store ∧
    collectionName defaultCollection request.collection = collection ∧
    record ∈ request.rows before.store ∧ record ∈ before.store.rows ∧ record.Active

theorem Sent.append {machine : Machine (World State Component) Label} {more : List Label}
    (sent : Sent machine defaultCollection start labels collection record) :
    Sent machine defaultCollection start (labels ++ more) collection record := by
  obtain ⟨earlier, number, request, later, before, rfl, rest⟩ := sent
  refine ⟨earlier, number, request, later ++ more, before, ?_, rest⟩
  rw [List.append_assoc, List.cons_append]

structure Task.Follows (task : Task) (find : String → Int → Option (Point Component))
    (sent : String → Record → Prop) (point : Record → Point Component) : Prop where
  rows : ∀ record ∈ task.rows, sent task.collection record
  distinct : (task.rows.map Record.id).Nodup
  present : task.rows ≠ []
  few : task.rows.length ≤ maxRecordIds
  requested : task.requested = task.rows.length + task.missing.length
  indexed : ∀ count collection, task.reply = some (.indexed count collection) →
    count = task.rows.length ∧ collection = task.collection ∧
      ∀ record ∈ task.rows, ∃ other, other.id = record.id ∧ sent task.collection other ∧
        find task.collection record.id = some (point other)

/-- Points come from rows that were sent, and requests are what they have read. -/
structure Traced (qdrant : Qdrant State Component) (encode : Text → Embedding Component) (repr : Double → Text)
    (sent : String → Record → Prop) (start world : World State Component) : Prop where
  cache : ∃ used, Recent.Holds encode embeddingCacheSize used world.gateway.cache
  points : ∀ collection id point, qdrant.find world.gateway.state collection id = some point →
    qdrant.find start.gateway.state collection id = some point ∨
      ∃ record, record.id = id ∧ sent collection record ∧ point = recordPoint repr encode record
  tasks : ∀ number task, world.tasks number = some task →
    task.Follows (qdrant.find world.gateway.state) sent (recordPoint repr encode)

theorem Traced.initial {sent : String → Record → Prop} (fresh : start.gateway.cache = [])
    (idle : ∀ number, start.tasks number = none) : Traced qdrant encode repr sent start start where
  cache := ⟨[], fresh ▸ .nil encode embeddingCacheSize⟩
  points := fun _ _ _ found => .inl found
  tasks := by
    intro number task present
    rw [idle] at present
    cases present

section Steps

variable {sent more : String → Record → Prop}

theorem Task.Follows.mono {find found : String → Int → Option (Point Component)} {point : Record → Point Component}
    (follows : task.Follows find sent point) (grows : ∀ collection record, sent collection record → more collection record)
    (kept : ∀ collection id record, record.id = id → find collection id = some (point record) →
      found collection id = some (point record) ∨
        ∃ other, other.id = id ∧ more collection other ∧ found collection id = some (point other)) :
    task.Follows found more point where
  rows := fun record member => grows task.collection record (follows.rows record member)
  distinct := follows.distinct
  present := follows.present
  few := follows.few
  requested := follows.requested
  indexed := by
    intro count collection replied
    obtain ⟨sameCount, same, held⟩ := follows.indexed count collection replied
    refine ⟨sameCount, same, fun record member => ?_⟩
    obtain ⟨other, named, otherSent, found⟩ := held record member
    rcases kept task.collection record.id other named found with still | newer
    · exact ⟨other, named, grows _ _ otherSent, still⟩
    · exact newer

theorem Traced.unchanged (traced : Traced qdrant encode repr sent start before)
    (grows : ∀ collection record, sent collection record → more collection record)
    (state : after.gateway.state = before.gateway.state)
    (cache : ∃ used, Recent.Holds encode embeddingCacheSize used after.gateway.cache)
    (tasks : ∀ number task, after.tasks number = some task → before.tasks number = some task ∨
      task.Follows (qdrant.find after.gateway.state) more (recordPoint repr encode)) :
    Traced qdrant encode repr more start after where
  cache := cache
  points := by
    intro collection id point found
    rw [state] at found
    refine (traced.points collection id point found).imp_right ?_
    rintro ⟨record, named, recordSent, rfl⟩
    exact ⟨record, named, grows collection record recordSent, rfl⟩
  tasks := by
    intro number task present
    rcases tasks number task present with old | follows
    · refine (traced.tasks number task old).mono grows fun collection id record _ found => .inl ?_
      rwa [state]
    · exact follows

theorem Task.Follows.answer {find : String → Int → Option (Point Component)} {point : Record → Point Component}
    (follows : task.Follows find sent point) : { task with answered := true }.Follows find sent point :=
  ⟨follows.rows, follows.distinct, follows.present, follows.few, follows.requested, follows.indexed⟩

theorem Request.follows (valid : request.Valid store) (read : request.task defaultCollection store = some task)
    (rows : ∀ record ∈ request.rows store, sent (collectionName defaultCollection request.collection) record)
    (find : String → Int → Option (Point Component)) (point : Record → Point Component) :
    task.Follows find sent point := by
  unfold Request.task at read
  dsimp only at read
  split at read
  next => cases read
  next present =>
    cases read
    exact ⟨rows, Request.distinct valid, present, Request.length_rows_le valid, Request.requested_eq valid, nofun⟩

theorem find_points {rows : List Record} (distinct : (rows.map Record.id).Nodup) (member : record ∈ rows) :
    (rows.map (recordPoint repr encode)).find? (·.id = record.id) = some (recordPoint repr encode record) := by
  cases found : (rows.map (recordPoint repr encode)).find? (·.id = record.id) with
  | none =>
    have apart := List.find?_eq_none.mp found _ (List.mem_map_of_mem member)
    exact absurd (decide_eq_true rfl) apart
  | some point =>
    obtain ⟨other, inside, rfl⟩ := List.mem_map.mp (List.mem_of_find?_eq_some found)
    have matched := List.find?_some found
    have same : other.id = record.id := of_decide_eq_true matched
    rw [List.inj_on_of_nodup_map distinct inside member same]

/-- What the gateway does with the rows of a request. -/
theorem Task.Follows.deliver (documented : qdrant.Documented) {find : String → Int → Option (Point Component)}
    (follows : task.Follows find sent (recordPoint repr encode)) {gateway : Gateway State Component}
    (holds : ∃ used, Recent.Holds encode embeddingCacheSize used gateway.cache) (raises : Text → Bool) :
    Indexing qdrant encode gateway (task.request repr) (task.rows.map (recordPoint repr encode))
      (index qdrant encode gateway (task.request repr) raises).1
      (index qdrant encode gateway (task.request repr) raises).2 := by
  have length : (task.request repr).documents.length = task.rows.length := List.length_map _
  refine index_spec documented holds ?_ ?_ (points_of_records task.rows) ?_ raises
  · exact fun empty => follows.present (List.map_eq_nil_iff.mp empty)
  · rw [length]
    exact follows.few.trans (by decide)
  · rw [List.map_map]
    exact follows.distinct

theorem Traced.deliver (traced : Traced qdrant encode repr sent start before)
    (grows : ∀ collection record, sent collection record → more collection record) {number : Nat}
    (present : before.tasks number = some task) {gateway : Gateway State Component} {reply : IndexReply}
    (indexing : Indexing qdrant encode before.gateway (task.request repr)
      (task.rows.map (recordPoint repr encode)) gateway reply) :
    Traced qdrant encode repr more start
      { before with
        gateway
        tasks := Function.update before.tasks number (some { task with reply := some reply }) } := by
  have follows := traced.tasks number task present
  have attempted : Attempted qdrant before.gateway.state gateway.state task.collection
      (task.rows.map (recordPoint repr encode)) :=
    indexing.indexed.elim (fun done => done.2.attempted) fun failed => failed.2
  refine ⟨indexing.cache, ?_, ?_⟩
  case refine_1 =>
    intro collection id point found
    rcases attempted collection id with same | ⟨rfl, written, member, named, now⟩
    · rw [same] at found
      refine (traced.points collection id point found).imp_right ?_
      rintro ⟨record, named, recordSent, rfl⟩
      exact ⟨record, named, grows collection record recordSent, rfl⟩
    · obtain ⟨record, inside, rfl⟩ := List.mem_map.mp member
      rw [now] at found
      exact .inr ⟨record, named, grows _ record (follows.rows record inside), (Option.some.inj found).symm⟩
  case refine_2 =>
    have others : ∀ other : Task, other.Follows (qdrant.find before.gateway.state) sent (recordPoint repr encode) →
        other.Follows (qdrant.find gateway.state) more (recordPoint repr encode) := by
      intro other old
      refine old.mono grows fun collection id record named found => ?_
      rcases attempted collection id with same | ⟨rfl, written, member, sameId, now⟩
      · exact .inl (same.trans found)
      · obtain ⟨newer, inside, rfl⟩ := List.mem_map.mp member
        exact .inr ⟨newer, sameId, grows _ newer (follows.rows newer inside), now⟩
    intro id handled assigned
    dsimp only at assigned
    by_cases own : id = number
    · rw [own, Function.update_self] at assigned
      cases assigned
      have kept := others task follows
      refine ⟨kept.rows, kept.distinct, kept.present, kept.few, kept.requested, ?_⟩
      intro count collection replied
      cases replied
      rcases indexing.indexed with ⟨answered, written⟩ | ⟨failed, -⟩
      · cases answered
        refine ⟨List.length_map _, rfl, fun record member => ⟨record, rfl, kept.rows record member, ?_⟩⟩
        have found := written task.collection record.id
        rw [Task.request, if_pos rfl, find_points follows.distinct member] at found
        exact found
      · cases failed
    · rw [Function.update_of_ne own] at assigned
      exact others handled (traced.tasks id handled assigned)

end Steps

theorem traced_run (documented : qdrant.Documented) (fresh : start.gateway.cache = [])
    (idle : ∀ number, start.tasks number = none)
    (ran : (machine repr qdrant encode defaultCollection depth).run start labels = some world) :
    Traced qdrant encode repr
      (Sent (machine repr qdrant encode defaultCollection depth) defaultCollection start labels) start world := by
  induction labels using List.reverseRecOn generalizing world with
  | nil =>
    cases ran
    exact .initial fresh idle
  | append_singleton labels last ih =>
    obtain ⟨middle, head, stepped⟩ := Machine.run_concat.mp ran
    have traced := ih head
    have grows : ∀ collection record,
        Sent (machine repr qdrant encode defaultCollection depth) defaultCollection start labels collection record →
        Sent (machine repr qdrant encode defaultCollection depth) defaultCollection start (labels ++ [last])
          collection record := fun _ _ sent => sent.append
    cases last with
    | write call =>
      simp only [machine, Option.map_eq_some_iff] at stepped
      obtain ⟨store, -, rfl⟩ := stepped
      exact traced.unchanged grows rfl traced.cache fun number task present => .inl present
    | embed request =>
      simp only [machine, Option.some.injEq] at stepped
      subst stepped
      obtain ⟨used, holds⟩ := traced.cache
      obtain ⟨next, answered, held⟩ := answer_holds holds request
      refine traced.unchanged grows rfl ⟨(Recent.answered embeddingCacheSize used request.texts).1, ?_⟩ fun number task present => .inl present
      dsimp only
      rw [answered]
      exact held
    | read number request =>
      simp only [machine, Option.ite_none_right_eq_some, Option.some.injEq] at stepped
      obtain ⟨⟨valid, free⟩, rfl⟩ := stepped
      refine traced.unchanged grows rfl traced.cache fun id task present => ?_
      dsimp only at present
      by_cases own : id = number
      · rw [own, Function.update_self] at present
        refine .inr (Request.follows valid present (fun record member => ?_) _ _)
        have active := Request.active valid member
        exact ⟨labels, number, request, [], middle, rfl, head, valid, rfl, member, active.1, active.2⟩
      · rw [Function.update_of_ne own] at present
        exact .inl present
    | deliver number raises =>
      simp only [machine, Option.bind_eq_some_iff, Option.ite_none_right_eq_some, Option.some.injEq] at stepped
      obtain ⟨task, present, -, rfl⟩ := stepped
      have follows := traced.tasks number task present
      exact traced.deliver grows present (follows.deliver documented traced.cache raises)
    | answer number lost =>
      simp only [machine, Option.bind_eq_some_iff, Option.ite_none_right_eq_some, Option.some.injEq] at stepped
      obtain ⟨task, present, -, rfl⟩ := stepped
      refine traced.unchanged grows rfl traced.cache fun id other assigned => ?_
      dsimp only at assigned
      by_cases own : id = number
      · rw [own, Function.update_self] at assigned
        cases assigned
        have kept := (traced.tasks number task present).mono grows fun _ _ _ _ found => .inl found
        exact .inr kept.answer
      · rw [Function.update_of_ne own] at assigned
        exact .inl assigned

def Began (machine : Machine (World State Component) Label) (defaultCollection : String)
    (start : World State Component) (labels : List Label) (number : Nat) (task : Task) : Prop :=
  ∃ earlier request later before read, labels = earlier ++ .read number request :: later ∧
    machine.run start earlier = some before ∧ request.Valid before.store ∧
    request.task defaultCollection before.store = some read ∧
    task = { read with reply := task.reply, answered := task.answered }

theorem Began.append {machine : Machine (World State Component) Label} {more : List Label} {number : Nat}
    (began : Began machine defaultCollection start labels number task) :
    Began machine defaultCollection start (labels ++ more) number task := by
  obtain ⟨earlier, request, later, before, read, rfl, rest⟩ := began
  refine ⟨earlier, request, later ++ more, before, read, ?_, rest⟩
  rw [List.append_assoc, List.cons_append]

/-- The reply and the answer are all that is ever added to a task. -/
theorem Began.update {machine : Machine (World State Component) Label} {number : Nat}
    (began : Began machine defaultCollection start labels number task) (reply : Option IndexReply) (answered : Bool) :
    Began machine defaultCollection start labels number { task with reply, answered } := by
  obtain ⟨earlier, request, later, before, read, split, head, valid, readIt, same⟩ := began
  refine ⟨earlier, request, later, before, read, split, head, valid, readIt, ?_⟩
  rw [same]

theorem began_run (idle : ∀ number, start.tasks number = none)
    (ran : (machine repr qdrant encode defaultCollection depth).run start labels = some world) {number : Nat}
    (present : world.tasks number = some task) :
    Began (machine repr qdrant encode defaultCollection depth) defaultCollection start labels number task := by
  induction labels using List.reverseRecOn generalizing world task with
  | nil =>
    cases ran
    rw [idle] at present
    cases present
  | append_singleton labels last ih =>
    obtain ⟨middle, head, stepped⟩ := Machine.run_concat.mp ran
    cases last with
    | write call =>
      simp only [machine, Option.map_eq_some_iff] at stepped
      obtain ⟨store, -, rfl⟩ := stepped
      exact (ih head present).append
    | embed request =>
      simp only [machine, Option.some.injEq] at stepped
      subst stepped
      exact (ih head present).append
    | read other request =>
      simp only [machine, Option.ite_none_right_eq_some, Option.some.injEq] at stepped
      obtain ⟨⟨valid, free⟩, rfl⟩ := stepped
      dsimp only at present
      by_cases own : number = other
      · rw [own, Function.update_self] at present
        subst own
        -- A request that reads has neither a reply nor an answer.
        have untouched : task = { task with reply := none, answered := false } := by
          unfold Request.task at present
          dsimp only at present
          split at present
          next => cases present
          next => cases present; rfl
        exact ⟨labels, request, [], middle, task, rfl, head, valid, present, by rw [untouched]⟩
      · rw [Function.update_of_ne own] at present
        exact (ih head present).append
    | deliver other raises =>
      simp only [machine, Option.bind_eq_some_iff, Option.ite_none_right_eq_some, Option.some.injEq] at stepped
      obtain ⟨task', found, -, rfl⟩ := stepped
      dsimp only at present
      by_cases own : number = other
      · subst own
        rw [Function.update_self] at present
        cases present
        exact ((ih head found).update _ task'.answered).append
      · rw [Function.update_of_ne own] at present
        exact (ih head present).append
    | answer other lost =>
      simp only [machine, Option.bind_eq_some_iff, Option.ite_none_right_eq_some, Option.some.injEq] at stepped
      obtain ⟨task', found, -, rfl⟩ := stepped
      dsimp only at present
      by_cases own : number = other
      · subst own
        rw [Function.update_self] at present
        cases present
        exact ((ih head found).update task'.reply true).append
      · rw [Function.update_of_ne own] at present
        exact (ih head present).append

/-- Indexing never takes a point out of a collection. -/
theorem kept_step (documented : qdrant.Documented) {sent : String → Record → Prop}
    (traced : Traced qdrant encode repr sent start before)
    (stepped : (machine repr qdrant encode defaultCollection depth).step before label = some after) {id : Int}
    (found : qdrant.find before.gateway.state collection id ≠ none) :
    qdrant.find after.gateway.state collection id ≠ none := by
  cases label with
  | write call =>
    simp only [machine, Option.map_eq_some_iff] at stepped
    obtain ⟨store, -, rfl⟩ := stepped
    exact found
  | embed request =>
    simp only [machine, Option.some.injEq] at stepped
    subst stepped
    exact found
  | read number request =>
    simp only [machine, Option.ite_none_right_eq_some, Option.some.injEq] at stepped
    obtain ⟨-, rfl⟩ := stepped
    exact found
  | deliver number raises =>
    simp only [machine, Option.bind_eq_some_iff, Option.ite_none_right_eq_some, Option.some.injEq] at stepped
    obtain ⟨task, present, -, rfl⟩ := stepped
    have indexing := (traced.tasks number task present).deliver documented traced.cache raises
    have attempted := indexing.indexed.elim (fun done => done.2.attempted) fun failed => failed.2
    rcases attempted collection id with same | ⟨-, point, -, -, now⟩
    · exact fun gone => found (same.symm.trans gone)
    · exact fun gone => absurd (now.symm.trans gone) nofun
  | answer number lost =>
    simp only [machine, Option.bind_eq_some_iff, Option.ite_none_right_eq_some, Option.some.injEq] at stepped
    obtain ⟨task, present, -, rfl⟩ := stepped
    exact found

/-- What a 200 tells of the request with its number, as it was when it read its
rows: each of them is in the collection since, as some request has read it. -/
structure Confirmed (machine : Machine (World State Component) Label) (qdrant : Qdrant State Component)
    (encode : Text → Embedding Component) (repr : Double → Text) (defaultCollection : String)
    (start : World State Component) (labels : List Label) (world then_ : World State Component) (request : Request)
    (requested indexed : Nat) (missing : List Int) (collection : String) : Prop where
  total : requested = indexed + missing.length
  asked : requested = request.requested then_.store
  sent : indexed = (request.rows then_.store).length
  rest : missing = request.missing then_.store
  named : collection = collectionName defaultCollection request.collection
  points : ∀ record ∈ request.rows then_.store, ∃ other, other.id = record.id ∧
    Sent machine defaultCollection start labels collection other ∧
    qdrant.find world.gateway.state collection record.id = some (recordPoint repr encode other)

theorem confirmed (documented : qdrant.Documented) (fresh : start.gateway.cache = [])
    (idle : ∀ number, start.tasks number = none)
    (ran : (machine repr qdrant encode defaultCollection depth).run start labels = some world)
    {number requested indexed : Nat} {lost : Bool} {missing : List Int}
    (present : world.tasks number = some task)
    (response : task.response lost = .indexed requested indexed missing collection) :
    ∃ earlier request later then_, labels = earlier ++ .read number request :: later ∧
      (machine repr qdrant encode defaultCollection depth).run start earlier = some then_ ∧
      Confirmed (machine repr qdrant encode defaultCollection depth) qdrant encode repr defaultCollection start labels
        world then_ request requested indexed missing collection := by
  have follows := (traced_run documented fresh idle ran).tasks number task present
  obtain ⟨earlier, request, later, then_, read, split, head, valid, readIt, same⟩ := began_run idle ran present
  unfold Task.response at response
  split at response
  next count name replied =>
    cases response
    obtain ⟨rfl, rfl, points⟩ := follows.indexed _ _ replied
    unfold Request.task at readIt
    dsimp only at readIt
    split at readIt
    next => cases readIt
    next =>
      cases readIt
      refine ⟨earlier, request, later, then_, split, head, ?_⟩
      rw [same] at points follows ⊢
      exact ⟨follows.requested, rfl, rfl, rfl, rfl, points⟩
  next => cases response

/-- After any run, what a collection holds under an id is a row with that id that
was active when a request read it, and every change to the records, loss of a
reply and raising call may come in between. Nothing is taken out of a collection,
not even when its record is archived or deleted. A request answered with a 200 has
told the ids it found from those it missed, and has each of its rows in the
collection. -/
theorem records_indexed (documented : qdrant.Documented) (start : World State Component)
    (fresh : start.gateway.cache = []) (idle : ∀ number, start.tasks number = none) (labels : List Label)
    (world : World State Component)
    (ran : (machine repr qdrant encode defaultCollection depth).run start labels = some world) :
    (∀ collection id point, qdrant.find world.gateway.state collection id = some point →
      qdrant.find start.gateway.state collection id = some point ∨
      ∃ record, record.id = id ∧ point = recordPoint repr encode record ∧
        Sent (machine repr qdrant encode defaultCollection depth) defaultCollection start labels collection record) ∧
    (machine repr qdrant encode defaultCollection depth).Every start labels fun earlier before label after =>
      (∀ collection id, qdrant.find before.gateway.state collection id ≠ none →
        qdrant.find after.gateway.state collection id ≠ none) ∧
      ∀ number lost task requested indexed missing collection, label = .answer number lost →
        before.tasks number = some task → task.response lost = .indexed requested indexed missing collection →
        ∃ first request later then_, earlier = first ++ .read number request :: later ∧
          (machine repr qdrant encode defaultCollection depth).run start first = some then_ ∧
          Confirmed (machine repr qdrant encode defaultCollection depth) qdrant encode repr defaultCollection start
            earlier before then_ request requested indexed missing collection := by
  refine ⟨?_, ?_⟩
  · intro collection id point found
    refine ((traced_run documented fresh idle ran).points collection id point found).imp_right ?_
    rintro ⟨record, named, sent, same⟩
    exact ⟨record, named, same, sent⟩
  · intro earlier label later before after split head stepped
    refine ⟨?_, ?_⟩
    · intro collection id found
      exact kept_step documented (traced_run documented fresh idle head) stepped found
    · rintro number lost task requested indexed missing collection - present response
      exact confirmed documented fresh idle head present response

/-! ## A record that is indexed -/

abbrev Points := String → Int → Option (Point Nat)

def plainQdrant : Qdrant Points Nat where
  getCollection state _ := (state, true)
  createCollection state _ _ := (state, true)
  upsert state name points :=
    (fun collection id =>
      if collection = name then (points.find? (·.id = id)).or (state collection id) else state collection id, true)
  find state := state

theorem plainQdrant_documented : plainQdrant.Documented where
  get := fun _ _ _ _ => rfl
  create := fun _ _ _ _ _ => rfl
  upsert := fun _ _ _ _ _ _ _ => rfl
  raised := by
    intro state name points collection id
    have written : Written plainQdrant state (plainQdrant.upsert state name points).1 name points := fun _ _ => rfl
    exact written.attempted collection id

def plainMachine : Machine (World Points Nat) Label :=
  machine (fun _ => []) plainQdrant (fun text => text) "records" 8

def emptyWorld : World Points Nat := ⟨Table.empty, ⟨[], fun _ _ => none⟩, fun _ => none⟩

def indexing : List Label :=
  [.write (.write (.create reading freshOne)), .read 0 (.records [1, 2, 1] none), .deliver 0 fun _ => false]

theorem sensor_indexed : ∃ world, plainMachine.run emptyWorld indexing = some world ∧
    ∃ point record, plainQdrant.find world.gateway.state "records" 1 = some point ∧ record.id = 1 ∧
      point = recordPoint (fun _ => []) (fun text => text) record ∧
      Sent plainMachine "records" emptyWorld indexing "records" record := by
  have held : (plainMachine.run emptyWorld indexing).any fun world =>
      (plainQdrant.find world.gateway.state "records" 1).isSome := by
    decide +kernel
  obtain ⟨world, ran, held⟩ := (Option.any_eq_true _ _).mp held
  obtain ⟨point, found⟩ := Option.isSome_iff_exists.mp held
  refine ⟨world, ran, point, ?_⟩
  rcases (records_indexed plainQdrant_documented emptyWorld rfl (fun _ => rfl) indexing world ran).1 "records" 1 point
    found with old | ⟨record, named, same, sent⟩
  · cases old
  · exact ⟨record, found, named, same, sent⟩

end DataPipeline.Pipeline.VectorIndexing
