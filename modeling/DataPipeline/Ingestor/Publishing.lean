import DataPipeline.Library.JsonWriting
import DataPipeline.Ingestor.Models
import DataPipeline.Processor.Consume

/-! The events of `libs/contracts/events.py`, the messages that
`ingestor/events.py` makes of them, and what the processor makes of these.
-/

set_option autoImplicit false

namespace DataPipeline.Ingestor.Publishing

open Encoding Processor

def eventRecordCreated : String := "record.created"

def eventDocScraped : String := "doc.scraped"

def topicRecordCreated : String := "records.events"

def topicScraped : String := "scraped.events"

structure EventPayload where
  eventType : String
  payload : List (Text × Json)

def EventPayload.toDict (event : EventPayload) : Json :=
  .dict [(Text.ofString "event_type", .str (Text.ofString event.eventType)),
    (Text.ofString "payload", .dict event.payload)]

/-- The event of `publish_record_created`: `{"record_id": record_id, **payload}`. -/
def recordCreated (recordId : Int) (payload : List (Text × Json)) : EventPayload where
  eventType := eventRecordCreated
  payload := Json.merge [(Text.ofString "record_id", .int recordId)] payload

/-- The event of `publish_doc_scraped`. -/
def docScraped (source : String) (count : Nat) : EventPayload where
  eventType := eventDocScraped
  payload := [(Text.ofString "source", .str (Text.ofString source)), (Text.ofString "count", .int count)]

/-- `json.dumps(event.to_dict()).encode()`; `repr` is how a float is written. -/
def EventPayload.value (repr : Double → Text) (event : EventPayload) : Option Bytes :=
  encodeUtf8 (Json.dumps repr event.toDict)

/-! ## What the processor reads -/

theorem unpaired_ofString (string : String) : Json.Unpaired (Text.ofString string) where
  inRange := by
    intro c member
    obtain ⟨char, -, rfl⟩ := List.mem_map.mp member
    exact char.valid.elim (fun low => lt_trans low (by decide)) fun high => high.2
  apart := by
    -- No character is a surrogate.
    have none : ∀ c d, d ∈ Text.ofString string → Json.isHighSurrogate c = true → Json.isLowSurrogate d = false := by
      intro c d member _
      obtain ⟨char, -, rfl⟩ := List.mem_map.mp member
      have valid : char.toNat < 0xD800 ∨ 0xDFFF < char.toNat ∧ char.toNat < 0x110000 := char.valid
      simp only [Json.isLowSurrogate, Bool.and_eq_false_iff, decide_eq_false_iff_not]
      omega
    exact (List.Pairwise.imp_of_mem (fun _ later _ => none _ _ later)
      (List.pairwise_of_forall (R := fun _ _ => True) fun _ _ => trivial)).isChain

/-- An object that is a payload: its keys are distinct, and it is written so that it can be read. -/
structure Payload (entries : List (Text × Json)) : Prop where
  distinct : (entries.map (·.1)).Nodup
  writable : Json.WritableEntries entries

theorem short_id {id : Int} (fits : FitsInteger id) : (decimal id.natAbs).length ≤ 4300 := by
  have magnitude : id.natAbs < 10 ^ 10 := by
    unfold FitsInteger at fits
    omega
  exact (length_decimal_le (by decide) magnitude).trans (by decide)

theorem payload_recordCreated {recordId : Int} (fits : FitsInteger recordId) {payload : List (Text × Json)}
    (written : Payload payload) : Payload (recordCreated recordId payload).payload where
  distinct := Json.nodup_merge (by simp) payload
  writable := by
    rw [Json.writableEntries_iff]
    intro entry member
    rcases Json.mem_merge member with id | own
    · rw [List.mem_singleton.mp id]
      exact ⟨unpaired_ofString _, short_id fits⟩
    · exact Json.writableEntries_iff.mp written.writable entry own

theorem writable_toDict {event : EventPayload} (written : Payload event.payload) : event.toDict.Writable := by
  refine ⟨?_, unpaired_ofString _, unpaired_ofString _, unpaired_ofString _, ⟨written.distinct, written.writable⟩, trivial⟩
  simp [Text.ofString]

theorem nesting_toDict (event : EventPayload) :
    event.toDict.nesting = Json.nestingEntries event.payload + 2 := by
  simp [EventPayload.toDict, Json.nesting, Json.nestingEntries]

/-- The stack has room for an event with such a payload, in the decoder and in the log line. -/
structure Room (interpreter : Interpreter) (payload : List (Text × Json)) : Prop where
  loads : Json.nestingEntries payload + 2 ≤ interpreter.loadsDepth
  dumps : Json.nestingEntries payload + 1 ≤ interpreter.dumpsDepth

/-- An event is sent as bytes that decode to it and that the processor
processes at the first attempt. -/
theorem handle_value (repr : Double → Text) {interpreter : Interpreter} {event : EventPayload}
    (written : Payload event.payload) (room : Room interpreter event.payload) :
    ∃ bytes, event.value repr = some bytes ∧ Json.loadsBytes interpreter.loadsDepth bytes = .ok event.toDict ∧
      handle interpreter (some bytes) = .ok () := by
  have shallow : event.toDict.nesting ≤ interpreter.loadsDepth := (nesting_toDict event).trans_le room.loads
  obtain ⟨bytes, encoded, decoded⟩ := Json.loadsBytes_dumps repr (writable_toDict written) shallow
  refine ⟨bytes, encoded, decoded, ?_⟩
  have eventType : (Json.get [(Text.ofString "event_type", .str (Text.ofString event.eventType)),
      (Text.ofString "payload", .dict event.payload)] "event_type").getD .null =
        .str (Text.ofString event.eventType) := by
    simp [Json.get]
  have payload : (Json.get [(Text.ofString "event_type", .str (Text.ofString event.eventType)),
      (Text.ofString "payload", .dict event.payload)] "payload").getD .null = .dict event.payload := by
    simp [Json.get, List.lookup_cons, Text.ofString]
  simp only [handle, decoded, processMessage, eventType, payload, reduceCtorEq, or_self,
    ↓reduceIte]
  rw [if_pos ⟨by simpa [Json.nesting] using room.dumps, Nat.zero_le _⟩]

/-- Whatever the payload of a `record.created` event, the processor gets all of
it, and the id unless the payload has an entry under its key. -/
theorem record_created_processed (repr : Double → Text) (interpreter : Interpreter) (recordId : Int)
    (payload : List (Text × Json)) (fits : FitsInteger recordId) (written : Payload payload)
    (room : Room interpreter payload) :
    ∃ bytes entries, (recordCreated recordId payload).value repr = some bytes ∧
      Json.loadsBytes interpreter.loadsDepth bytes =
        .ok (.dict [(Text.ofString "event_type", .str (Text.ofString eventRecordCreated)),
          (Text.ofString "payload", .dict entries)]) ∧
      (∀ key, entries.lookup key = (payload.lookup key).or
        (if key = Text.ofString "record_id" then some (.int recordId) else none)) ∧
      handle interpreter (some bytes) = .ok () := by
  have deeper : Json.nestingEntries (recordCreated recordId payload).payload ≤ Json.nestingEntries payload :=
    (Json.nestingEntries_merge _ payload).trans (by simp [Json.nestingEntries, Json.nesting])
  have room' : Room interpreter (recordCreated recordId payload).payload :=
    ⟨(Nat.add_le_add_right deeper 2).trans room.loads, (Nat.add_le_add_right deeper 1).trans room.dumps⟩
  obtain ⟨bytes, encoded, decoded, handled⟩ := handle_value repr (payload_recordCreated fits written) room'
  refine ⟨bytes, _, encoded, decoded, fun key => ?_, handled⟩
  rw [recordCreated, Json.lookup_merge _ written.distinct, List.lookup_cons, List.lookup_nil]
  by_cases same : key = Text.ofString "record_id"
  · simp [same]
  · simp [same, beq_false_of_ne same]

theorem record_created_processed_sample :
    ∃ bytes entries, (recordCreated 7 [(Text.ofString "source", .str (Text.ofString "hn"))]).value
        (fun _ => []) = some bytes ∧
      Json.loadsBytes sampleInterpreter.loadsDepth bytes =
        .ok (.dict [(Text.ofString "event_type", .str (Text.ofString eventRecordCreated)),
          (Text.ofString "payload", .dict entries)]) ∧
      (∀ key, entries.lookup key = ([(Text.ofString "source", .str (Text.ofString "hn"))].lookup key).or
        (if key = Text.ofString "record_id" then some (.int 7) else none)) ∧
      handle sampleInterpreter (some bytes) = .ok () :=
  record_created_processed (fun _ => []) sampleInterpreter 7 [(Text.ofString "source", .str (Text.ofString "hn"))]
    (by decide) ⟨by simp, unpaired_ofString _, unpaired_ofString _, trivial⟩
    ⟨by decide, by decide⟩

end DataPipeline.Ingestor.Publishing
