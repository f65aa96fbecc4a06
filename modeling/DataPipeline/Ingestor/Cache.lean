import DataPipeline.Library.Expiring
import DataPipeline.Ingestor.Models

/-! The Redis cache of `ingestor/cache.py`, connected and never failing.

Redis drops an entry once its time to live is over. What pydantic writes and
reads back is a parameter: either direction may raise, which the cache treats
as a miss or as nothing to store.
-/

set_option autoImplicit false

namespace DataPipeline.Ingestor

open Encoding

structure RecordCodec where
  modelDumpJson : RecordResponse → Option String
  modelValidateJson : String → Option RecordResponse

/-- JSON has no text for NaN and the infinities, so they are left out. -/
def RecordResponse.Standard (response : RecordResponse) : Prop := (Json.dict response.rawData).isFinite = true

/-- What is read back from the text of a response, if anything, is that response. -/
def RecordCodec.Faithful (codec : RecordCodec) : Prop :=
  ∀ response text other, response.Standard → codec.modelDumpJson response = some text →
    codec.modelValidateJson text = some other → other = response

abbrev RecordCache := Expiring Text String ℚ

namespace Cache

def cacheKeyRecord (recordId : Int) : Text := Text.ofString "dp:record:" ++ Json.dumpsInt recordId

def cacheTtlRecord : ℚ := 3600

def getRecord (codec : RecordCodec) (cache : RecordCache) (now : ℚ) (recordId : Int) : Option RecordResponse :=
  (cache.get now (cacheKeyRecord recordId)).bind codec.modelValidateJson

def setRecord (codec : RecordCodec) (cache : RecordCache) (now : ℚ) (recordId : Int)
    (record : RecordResponse) (ttl : ℚ) : RecordCache :=
  match codec.modelDumpJson record with
  | some text => cache.setex (cacheKeyRecord recordId) (now + ttl) text
  -- An exception of the dump is logged and nothing is stored.
  | none => cache

def invalidateRecord (cache : RecordCache) (recordId : Int) : RecordCache :=
  cache.delete (cacheKeyRecord recordId)

variable {codec : RecordCodec} {cache : RecordCache} {now later ttl : ℚ} {recordId other : Int}
  {record response : RecordResponse} {text : String}

theorem cacheKeyRecord_inj : cacheKeyRecord recordId = cacheKeyRecord other ↔ recordId = other := by
  unfold cacheKeyRecord
  rw [List.append_cancel_left_eq, Json.dumpsInt_injective.eq_iff]

theorem getRecord_of_later (order : now ≤ later) (found : getRecord codec cache later recordId = some response) :
    getRecord codec cache now recordId = some response := by
  obtain ⟨text, kept, read⟩ := Option.bind_eq_some_iff.mp found
  exact Option.bind_eq_some_iff.mpr ⟨text, Expiring.get_of_later order kept, read⟩

theorem get_invalidateRecord :
    (invalidateRecord cache other).get now (cacheKeyRecord recordId) =
      if recordId = other then none else cache.get now (cacheKeyRecord recordId) := by
  unfold invalidateRecord
  rw [Expiring.get_delete]
  simp only [cacheKeyRecord_inj]

theorem getRecord_invalidateRecord :
    getRecord codec (invalidateRecord cache other) now recordId =
      if recordId = other then none else getRecord codec cache now recordId := by
  unfold getRecord
  rw [get_invalidateRecord]
  split <;> rfl

theorem get_setRecord
    (held : (setRecord codec cache later other record ttl).get now (cacheKeyRecord recordId) = some text) :
    (recordId = other ∧ codec.modelDumpJson record = some text) ∨
      cache.get now (cacheKeyRecord recordId) = some text := by
  unfold setRecord at held
  split at held
  next written dumped =>
    rw [Expiring.get_setex] at held
    simp only [cacheKeyRecord_inj] at held
    split at held
    -- Under its own key the text just written is held, as long as it has not expired.
    next same =>
      rw [Option.ite_none_right_eq_some] at held
      exact .inl ⟨same, held.2 ▸ dumped⟩
    next => exact .inr held
  next => exact .inr held

theorem getRecord_setRecord (faithful : codec.Faithful) (standard : record.Standard)
    (found : getRecord codec (setRecord codec cache later other record ttl) now recordId = some response) :
    (recordId = other ∧ response = record) ∨ getRecord codec cache now recordId = some response := by
  obtain ⟨text, held, read⟩ := Option.bind_eq_some_iff.mp found
  rcases get_setRecord held with ⟨same, dumped⟩ | earlier
  · exact .inl ⟨same, faithful record text response standard dumped read⟩
  · exact .inr (Option.bind_eq_some_iff.mpr ⟨text, earlier, read⟩)

end Cache

end DataPipeline.Ingestor
