import DataPipeline.Library.Calendar
import DataPipeline.Library.Json

/-! Request and response bodies of the ingestor, as they are after validation. -/

set_option autoImplicit false

namespace DataPipeline.Ingestor

open Calendar

def sourceMaxLength : Nat := 255
def sourceMinLength : Nat := 1
def tagsMaxCount : Nat := 10

/-- `data` is a JSON object; timestamps have lost their offset. -/
structure RecordRequest where
  source : String
  timestamp : DateTime
  data : List (Encoding.Text × Json)
  tags : List String
  deriving DecidableEq

/-- A field that is None is left unchanged. -/
structure UpdateRecordRequest where
  source : Option String
  timestamp : Option DateTime
  data : Option (List (Encoding.Text × Json))
  tags : Option (List String)
  deriving DecidableEq

structure RecordResponse where
  id : Int
  source : String
  timestamp : DateTime
  rawData : List (Encoding.Text × Json)
  tags : List String
  processed : Bool
  createdAt : DateTime
  updatedAt : Option DateTime
  deletedAt : Option DateTime
  deriving DecidableEq

/-- Addresses that `source_not_localhost` rejects, in any case. -/
def reservedAddresses : List String := ["localhost", "127.0.0.1", "::1", "0.0.0.0", "::"]

/-- Lower case on ASCII, which decides membership among the reserved addresses:
no other character has a lower-case form made of their characters. -/
def asciiLower (text : String) : String := String.ofList (text.toList.map Char.toLower)

/-- What the validators of `RecordRequest` check at the time `now`. -/
def RecordRequest.Valid (now : DateTime) (request : RecordRequest) : Prop :=
  sourceMinLength ≤ request.source.length ∧ request.source.length ≤ sourceMaxLength ∧
    asciiLower request.source ∉ reservedAddresses ∧ request.timestamp ≤ now ∧
    request.tags.length ≤ tagsMaxCount

instance (now : DateTime) (request : RecordRequest) : Decidable (request.Valid now) := by
  unfold RecordRequest.Valid
  infer_instance

/-! ## A sample reading -/

/-- An hour of the first of January, counted modulo 24. -/
def january (hour : Nat) : DateTime := ⟨⟨2026, 1, 1, by decide⟩, hour % 24, 0, 0, 0, by omega⟩

def reading : RecordRequest := ⟨"sensor", january 8, [], []⟩

end DataPipeline.Ingestor
