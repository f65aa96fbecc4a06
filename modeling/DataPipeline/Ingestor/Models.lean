import DataPipeline.Library.Table
import DataPipeline.Ingestor.Schemas

/-! The table of records of `ingestor/models.py`. -/

set_option autoImplicit false

namespace DataPipeline.Ingestor

open Calendar

/-- The integers of an `Integer` column, which has four bytes. -/
def FitsInteger (id : Int) : Prop := -2 ^ 31 ≤ id ∧ id < 2 ^ 31

instance (id : Int) : Decidable (FitsInteger id) := inferInstanceAs (Decidable (_ ∧ _))

/-- A `VARCHAR` takes a text up to its length; no column takes a zero byte. -/
def fitsString (length : Nat) (text : String) : Bool := text.length ≤ length && !text.toList.contains (Char.ofNat 0)

/-- A `JSON` column takes what has a JSON text, in which surrogates are escaped. -/
def fitsJson (data : List (Encoding.Text × Json)) : Bool :=
  (Json.dict data).isFinite && (Json.dict data).every Json.isShortInt fun _ => true

/-- What a response is made of is not escaped. -/
def rendersJson (data : List (Encoding.Text × Json)) : Bool :=
  (Json.dict data).every Json.isEncodable fun key => (Encoding.encodeUtf8 key).isSome

/-- A row of `records`. -/
structure Record where
  id : Int
  source : String
  timestamp : DateTime
  rawData : List (Encoding.Text × Json)
  tags : List String
  processed : Bool
  processedAt : Option DateTime
  createdAt : DateTime
  updatedAt : Option DateTime
  deletedAt : Option DateTime
  id_fits : FitsInteger id
  deriving DecidableEq

/-- Ids have room in eight bytes too, which is what a cursor is read back with. -/
theorem FitsInteger.wide {id : Int} (fits : FitsInteger id) : -2 ^ 63 ≤ id ∧ id < 2 ^ 63 := by
  unfold FitsInteger at fits
  omega

namespace Record

/-- The columns of `uq_records_source_timestamp`. -/
def key (record : Record) : String × DateTime := (record.source, record.timestamp)

def Active (record : Record) : Prop := record.deletedAt = none

instance (record : Record) : Decidable record.Active := inferInstanceAs (Decidable (_ = _))

def fits (record : Record) : Bool := fitsString 255 record.source && fitsJson record.rawData

end Record

def RecordRequest.key (request : RecordRequest) : String × DateTime := (request.source, request.timestamp)

def RecordRequest.fits (request : RecordRequest) : Bool :=
  fitsString 255 request.source && fitsJson request.data

/-- The rows of `records`, archived ones included. -/
abbrev Store := Table Record.id Record.key

/-- An id that the database may give to a new row, and the readings of the
column defaults `created_at` and `updated_at`. -/
structure Fresh where
  id : Int
  createdAt : DateTime
  updatedAt : DateTime
  id_fits : FitsInteger id
  deriving DecidableEq

/-- The row an INSERT makes of a request. -/
def Record.ofRequest (request : RecordRequest) (fresh : Fresh) : Record where
  id := fresh.id
  source := request.source
  timestamp := request.timestamp
  rawData := request.data
  tags := request.tags
  processed := false
  processedAt := none
  createdAt := fresh.createdAt
  updatedAt := some fresh.updatedAt
  deletedAt := none
  id_fits := fresh.id_fits

def RecordResponse.modelValidate (record : Record) : RecordResponse where
  id := record.id
  source := record.source
  timestamp := record.timestamp
  rawData := record.rawData
  tags := record.tags
  processed := record.processed
  createdAt := record.createdAt
  updatedAt := record.updatedAt
  deletedAt := record.deletedAt

@[simp] theorem Record.key_ofRequest (request : RecordRequest) (fresh : Fresh) :
    (Record.ofRequest request fresh).key = request.key := rfl

@[simp] theorem Record.fits_ofRequest (request : RecordRequest) (fresh : Fresh) :
    (Record.ofRequest request fresh).fits = request.fits := rfl

@[simp] theorem Record.id_ofRequest (request : RecordRequest) (fresh : Fresh) :
    (Record.ofRequest request fresh).id = fresh.id := rfl

def freshOne : Fresh := ⟨1, january 9, january 9, by decide⟩

def freshTwo : Fresh := ⟨2, january 9, january 9, by decide⟩

end DataPipeline.Ingestor
