import DataPipeline.Ingestor.Listing
import DataPipeline.Library.Semaphore

/-! Concurrent enrichment, step by step: the tasks of one call, which share a semaphore
with each other and perhaps with other calls.
-/

set_option autoImplicit false

namespace DataPipeline.Ingestor.Enrichment

open Encoding

def urlOf (post : Int) : String := "https://jsonplaceholder.typicode.com/posts/" ++ toString post

/-- What a field of type `str | None` takes. -/
def optionalString : Json → Option (Option String)
  | .null => some none
  -- A lone surrogate is no valid string.
  | .str text => if (encodeUtf8 text).isSome then some (some text.toString) else none
  | _ => none

def typeName : Json → String
  | .null => "NoneType"
  | .bool _ => "bool"
  | .int _ => "int"
  | .float _ => "float"
  | .str _ => "str"
  | .list _ => "list"
  | .dict _ => "dict"

def field (entries : List (Text × Json)) (name : String) : Json := (Json.get entries name).getD .null

/-- The title and the body for the result. `describe` is the text of the validation's error. -/
def external (describe : Json → Json → String) : Json → Except String (Option String × Option String)
  | .dict entries =>
    match optionalString (field entries "title"), optionalString (field entries "body") with
    | some title, some body => .ok (title, body)
    | _, _ => .error (describe (field entries "title") (field entries "body"))
  | data => .error ("'" ++ typeName data ++ "' object has no attribute 'get'")

/-- What a task knows when it waits for the semaphore. -/
structure Found where
  recordId : Int
  source : String

/-- `enrich_one`; each position has a fetch of its own, which may raise. -/
def enrichOne (describe : Json → Json → String) (records : List Record)
    (fetched : Nat → String → Except String Json) : Semaphore.Work Int Found EnrichedRecord where
  start recordId :=
    match records.find? (·.id = recordId) with
    | none => .inl (notFound recordId)
    | some record => .inr ⟨recordId, record.source⟩
  inside position found :=
    match fetched position (urlOf (postId found.recordId)) >>= external describe with
    | .ok (title, body) => ⟨found.recordId, found.source, title, body, true, none⟩
    | .error message => ⟨found.recordId, found.source, none, none, false, some message⟩

def enrichSemaphoreLimit : Nat := 10

/-- The fetch has returned an object whose title and body are texts, null or absent. -/
def Succeeds (answer : Except String Json) : Prop :=
  ∃ entries, answer = .ok (.dict entries) ∧ (optionalString (field entries "title")).isSome = true ∧
    (optionalString (field entries "body")).isSome = true

variable {describe : Json → Json → String} {store : Store} {records : List Record} {recordIds : List Int}
  {fetched : Nat → String → Except String Json} {recordId : Int} {position : Nat}

/-- The endpoint makes a semaphore of its own for each call. -/
theorem inFlight_le_limit {labels : List Semaphore.Label} {world : Semaphore.World Found EnrichedRecord}
    (ran : (Semaphore.machine (enrichOne describe records fetched) recordIds).run
      (.initial enrichSemaphoreLimit 0 recordIds) labels = some world) : world.inFlight ≤ enrichSemaphoreLimit :=
  (Semaphore.sound_run ran).inFlight_le

def oneRecord : Store := (Table.empty.insert? (Record.ofRequest reading freshOne)).getD Table.empty

end DataPipeline.Ingestor.Enrichment
