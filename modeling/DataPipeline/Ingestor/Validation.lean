import DataPipeline.Ingestor.Models
import DataPipeline.Library.Casing

/-! The validators of `ingestor/schemas.py`, from a request body to the request
or its errors.

How JSON values are read as datetimes, and where a word ends for lower case,
are parameters; `now` is the reading of the clock that a validation takes.
-/

set_option autoImplicit false

namespace DataPipeline.Ingestor

open Calendar Encoding

/-! ## Bodies and errors -/

/-- A field of a body; malformed is a value of another type. -/
inductive Field (α : Type) where
  | missing
  | null
  | malformed
  | value (value : α)
  deriving DecidableEq

/-- A timestamp as it arrives: in JSON, or from a caller in Python. -/
inductive RawTimestamp where
  | json (value : Json)
  | datetime (stamp : Stamp)
  deriving DecidableEq

structure RawRequest where
  source : Field String
  timestamp : Field RawTimestamp
  data : Field (List (Text × Json))
  tags : Field (List String)
  deriving DecidableEq

inductive Problem where
  | missing
  | wrongType
  | tooShort
  | tooLong
  | valueError (message : String)
  deriving DecidableEq

structure FieldError where
  loc : String
  problem : Problem
  deriving DecidableEq

def Field.required {α β : Type} (validate : α → Except Problem β) : Field α → Except Problem β
  | .missing => .error .missing
  | .null | .malformed => .error .wrongType
  | .value given => validate given

/-- A field with a default, which is not validated. -/
def Field.withDefault {α β : Type} (default : β) (validate : α → Except Problem β) : Field α → Except Problem β
  | .missing => .ok default
  | .null | .malformed => .error .wrongType
  | .value given => validate given

def Field.optional {α β : Type} (validate : α → Except Problem β) : Field α → Except Problem (Option β)
  | .missing | .null => .ok none
  | .malformed => .error .wrongType
  | .value given => (validate given).map some

def errorOf {α : Type} (loc : String) : Except Problem α → List FieldError
  | .ok _ => []
  | .error problem => [⟨loc, problem⟩]

/-! ## Validators of a field -/

variable (isFinal : List Char → List Char → Bool) (parse : Json → Option Stamp) (now : DateTime)

def sourceNotLocalhost (v : String) : Except Problem String :=
  if Casing.lower isFinal v ∈ reservedAddresses then
    .error (.valueError ("source cannot be a reserved address (" ++ v ++ "). Use actual hostname or IP instead."))
  else .ok v

def validateSource (source : String) : Except Problem String :=
  if source.length < sourceMinLength then .error .tooShort
  else if sourceMaxLength < source.length then .error .tooLong
  else sourceNotLocalhost isFinal source

/-- `normalize_timestamp`, which sees a timestamp before it is parsed: an
offset is dropped, if there is one to be seen. -/
def normalizeTimestamp : RawTimestamp → RawTimestamp
  | .datetime stamp => .datetime { stamp with offset := none }
  | .json value => .json value

def RawTimestamp.read : RawTimestamp → Option Stamp
  | .json value => parse value
  | .datetime stamp => some stamp

def futureMessage : String := "timestamp cannot be in the future"

/-- `not_in_future`; here the offset of a parsed timestamp is dropped. -/
def notInFuture (v : Stamp) : Except Problem DateTime :=
  if now < v.moment then .error (.valueError futureMessage) else .ok v.moment

def validateTimestamp (timestamp : RawTimestamp) : Except Problem DateTime :=
  match (normalizeTimestamp timestamp).read parse with
  | none => .error .wrongType
  | some stamp => notInFuture now stamp

def lowercaseTags (tags : List String) : List String := tags.map (Casing.lower isFinal)

def validateTags (tags : List String) : Except Problem (List String) :=
  if tagsMaxCount < tags.length then .error .tooLong else .ok (lowercaseTags isFinal tags)

/-! ## Schemas -/

section

variable {α β γ δ : Type}

/-- The values of the fields, or the errors of all that have one. -/
def gather (source : Except Problem α) (timestamp : Except Problem β) (data : Except Problem γ)
    (tags : Except Problem δ) : Except (List FieldError) (α × β × γ × δ) :=
  match source, timestamp, data, tags with
  | .ok source, .ok timestamp, .ok data, .ok tags => .ok (source, timestamp, data, tags)
  | _, _, _, _ => .error (errorOf "source" source ++ errorOf "timestamp" timestamp ++ errorOf "data" data ++
      errorOf "tags" tags)

end

def RecordRequest.validate (raw : RawRequest) : Except (List FieldError) RecordRequest :=
  (gather (raw.source.required (validateSource isFinal)) (raw.timestamp.withDefault now (validateTimestamp parse now))
    (raw.data.required Except.ok) (raw.tags.withDefault [] (validateTags isFinal))).map
      fun (source, timestamp, data, tags) => ⟨source, timestamp, data, tags⟩

/-- `UpsertRequest` inherits all fields and validators. -/
def UpsertRequest.validate (raw : RawRequest) : Except (List FieldError) RecordRequest :=
  RecordRequest.validate isFinal parse now raw

def UpdateRecordRequest.validate (raw : RawRequest) : Except (List FieldError) UpdateRecordRequest :=
  (gather (raw.source.optional (validateSource isFinal)) (raw.timestamp.optional (validateTimestamp parse now))
    (raw.data.optional Except.ok) (raw.tags.optional (validateTags isFinal))).map
      fun (source, timestamp, data, tags) => ⟨source, timestamp, data, tags⟩

/-! ## What is accepted -/

variable {isFinal} {parse} {now} {raw : RawRequest}

def reservedCodes : List Nat := (reservedAddresses.flatMap String.toList).map Char.toNat

theorem reservedCodes_fromAscii : Casing.FromAscii reservedCodes = true := by decide +kernel

/-- Lower case finds the reserved addresses that lower case in ASCII finds. -/
theorem lower_mem_reserved_iff {source : String} :
    Casing.lower isFinal source ∈ reservedAddresses ↔ asciiLower source ∈ reservedAddresses := by
  have same : ∀ address ∈ reservedAddresses, Casing.lower isFinal source = address ↔ asciiLower source = address := by
    intro address member
    rw [Casing.lower, asciiLower, ← String.toList_inj, ← String.toList_inj, String.toList_ofList,
      String.toList_ofList]
    apply Casing.lowerAfter_eq_iff reservedCodes_fromAscii
    intro c inside
    exact List.mem_map_of_mem (List.mem_flatMap.mpr ⟨address, member, inside⟩)
  constructor
  · intro reserved
    rwa [(same _ reserved).mp rfl]
  · intro reserved
    rwa [(same _ reserved).mpr rfl]

section

variable {α β γ δ : Type} {source : Except Problem α} {timestamp : Except Problem β} {data : Except Problem γ}
  {tags : Except Problem δ}

theorem mem_errorOf {loc : String} {result : Except Problem α} {error : FieldError} :
    error ∈ errorOf loc result ↔ error.loc = loc ∧ result = .error error.problem := by
  obtain ⟨ownLoc, problem⟩ := error
  cases result with
  | ok value => simp [errorOf]
  | error own => simp [errorOf, eq_comm]

theorem gather_eq_ok_iff {values : α × β × γ × δ} :
    gather source timestamp data tags = .ok values ↔
      source = .ok values.1 ∧ timestamp = .ok values.2.1 ∧ data = .ok values.2.2.1 ∧ tags = .ok values.2.2.2 := by
  obtain ⟨first, second, third, fourth⟩ := values
  unfold gather
  split
  next => simp
  next incomplete =>
    simp only [reduceCtorEq, false_iff]
    rintro ⟨rfl, rfl, rfl, rfl⟩
    exact incomplete first second third fourth rfl rfl rfl rfl

/-- Every error names the field it is about. -/
theorem mem_gather_errors {errors : List FieldError} (rejected : gather source timestamp data tags = .error errors)
    {error : FieldError} :
    error ∈ errors ↔ (error.loc = "source" ∧ source = .error error.problem) ∨
      (error.loc = "timestamp" ∧ timestamp = .error error.problem) ∨
      (error.loc = "data" ∧ data = .error error.problem) ∨ error.loc = "tags" ∧ tags = .error error.problem := by
  unfold gather at rejected
  split at rejected
  next => cases rejected
  next =>
    cases rejected
    simp only [List.mem_append, mem_errorOf, or_assoc]

theorem isOk_iff {result : Except Problem α} : result.isOk = true ↔ ∃ value, result = .ok value := by
  cases result with
  | ok value => simp [Except.isOk, Except.toBool]
  | error problem => simp [Except.isOk, Except.toBool]

variable (source data tags)

theorem gather_of_error {problem : Problem} (refused : timestamp = .error problem) :
    ∃ errors, gather source timestamp data tags = .error errors ∧ ⟨"timestamp", problem⟩ ∈ errors := by
  cases gathered : gather source timestamp data tags with
  | ok values =>
    have accepted := (gather_eq_ok_iff.mp gathered).2.1
    rw [refused] at accepted
    cases accepted
  | error errors => exact ⟨errors, rfl, (mem_gather_errors gathered).mpr (.inr (.inl ⟨rfl, refused⟩))⟩

theorem gather_of_ok {value : β} (accepted : timestamp = .ok value) :
    (∃ first third fourth, gather source timestamp data tags = .ok (first, value, third, fourth) ∧
      source.isOk ∧ data.isOk ∧ tags.isOk) ∨
    (∃ errors, gather source timestamp data tags = .error errors ∧ (∀ error ∈ errors, error.loc ≠ "timestamp") ∧
      ¬ (source.isOk ∧ data.isOk ∧ tags.isOk)) := by
  simp only [isOk_iff]
  cases gathered : gather source timestamp data tags with
  | ok values =>
    obtain ⟨first, second, third, fourth⟩ := values
    obtain ⟨isSource, isTimestamp, isData, isTags⟩ := gather_eq_ok_iff.mp gathered
    cases accepted.symm.trans isTimestamp
    exact .inl ⟨first, third, fourth, rfl, ⟨first, isSource⟩, ⟨third, isData⟩, fourth, isTags⟩
  | error errors =>
    refine .inr ⟨errors, rfl, fun error member loc => ?_, ?_⟩
    · rcases (mem_gather_errors gathered).mp member with ⟨own, -⟩ | ⟨-, refused⟩ | ⟨own, -⟩ | ⟨own, -⟩
      · exact absurd (own.symm.trans loc) (by decide)
      · cases accepted.symm.trans refused
      · exact absurd (own.symm.trans loc) (by decide)
      · exact absurd (own.symm.trans loc) (by decide)
    · rintro ⟨⟨first, isSource⟩, ⟨third, isData⟩, fourth, isTags⟩
      have all : gather source timestamp data tags = .ok (first, value, third, fourth) :=
        gather_eq_ok_iff.mpr ⟨isSource, accepted, isData, isTags⟩
      rw [gathered] at all
      cases all

end

def SourceValid (isFinal : List Char → List Char → Bool) (source : String) : Prop :=
  sourceMinLength ≤ source.length ∧ source.length ≤ sourceMaxLength ∧
    Casing.lower isFinal source ∉ reservedAddresses

def TagsValid (isFinal : List Char → List Char → Bool) (tags : List String) : Prop :=
  tags.length ≤ tagsMaxCount ∧ ∀ tag ∈ tags, Casing.lower isFinal tag = tag

theorem validateSource_ok {source value : String} (ok : validateSource isFinal source = .ok value) :
    SourceValid isFinal value := by
  unfold validateSource sourceNotLocalhost at ok
  split at ok
  next => cases ok
  next long =>
    split at ok
    next => cases ok
    next short =>
      split at ok
      next => cases ok
      next free =>
        cases ok
        exact ⟨Nat.not_lt.mp long, Nat.not_lt.mp short, free⟩

theorem validateTimestamp_ok {timestamp : RawTimestamp} {value : DateTime}
    (ok : validateTimestamp parse now timestamp = .ok value) : value ≤ now := by
  unfold validateTimestamp notInFuture at ok
  split at ok
  next => cases ok
  next =>
    split at ok
    next => cases ok
    next past => cases ok; exact not_lt.mp past

theorem validateTags_ok {tags value : List String} (ok : validateTags isFinal tags = .ok value) :
    TagsValid isFinal value := by
  unfold validateTags at ok
  split at ok
  next => cases ok
  next few =>
    cases ok
    refine ⟨by simpa [lowercaseTags] using Nat.not_lt.mp few, fun tag member => ?_⟩
    obtain ⟨before, -, rfl⟩ := List.mem_map.mp member
    exact Casing.lower_lower before

section

variable {α β : Type} {field : Field α} {validate : α → Except Problem β} {value : β}

theorem Field.required_ok (ok : field.required validate = .ok value) : ∃ given, validate given = .ok value := by
  cases field with
  | missing | null | malformed => cases ok
  | value given => exact ⟨given, ok⟩

theorem Field.withDefault_ok {default : β} (ok : field.withDefault default validate = .ok value) :
    value = default ∨ ∃ given, validate given = .ok value := by
  cases field with
  | missing => cases ok; exact .inl rfl
  | null | malformed => cases ok
  | value given => exact .inr ⟨given, ok⟩

theorem Field.optional_ok (ok : field.optional validate = .ok (some value)) :
    ∃ given, validate given = .ok value := by
  cases field with
  | missing | null | malformed => cases ok
  | value given =>
    refine ⟨given, ?_⟩
    rw [Field.optional] at ok
    cases result : validate given with
    | ok own => rw [result] at ok; cases ok; rfl
    | error problem => rw [result] at ok; cases ok

end

theorem map_eq_ok {α β : Type} {result : Except (List FieldError) α} {change : α → β} {value : β}
    (ok : result.map change = .ok value) : ∃ before, result = .ok before ∧ change before = value := by
  cases result with
  | ok before => cases ok; exact ⟨before, rfl, rfl⟩
  | error errors => cases ok

theorem RecordRequest.validate_ok {request : RecordRequest}
    (ok : RecordRequest.validate isFinal parse now raw = .ok request) :
    SourceValid isFinal request.source ∧ request.timestamp ≤ now ∧ TagsValid isFinal request.tags := by
  obtain ⟨values, gathered, rfl⟩ := map_eq_ok ok
  obtain ⟨source, timestamp, -, tags⟩ := gather_eq_ok_iff.mp gathered
  refine ⟨?_, ?_, ?_⟩
  · obtain ⟨given, valid⟩ := Field.required_ok source
    exact validateSource_ok valid
  · rcases Field.withDefault_ok timestamp with same | ⟨given, valid⟩
    · exact le_of_eq same
    · exact validateTimestamp_ok valid
  · rcases Field.withDefault_ok tags with same | ⟨given, valid⟩
    · show TagsValid isFinal values.2.2.2
      rw [same]
      exact ⟨Nat.zero_le _, by simp⟩
    · exact validateTags_ok valid

theorem RecordRequest.validate_values {source validSource : String} {timestamp : RawTimestamp}
    {validTimestamp : DateTime} {data : List (Text × Json)} {tags validTags : List String}
    (isSource : validateSource isFinal source = .ok validSource)
    (isTimestamp : validateTimestamp parse now timestamp = .ok validTimestamp)
    (isTags : validateTags isFinal tags = .ok validTags) :
    RecordRequest.validate isFinal parse now ⟨.value source, .value timestamp, .value data, .value tags⟩ =
      .ok ⟨validSource, validTimestamp, data, validTags⟩ := by
  simp only [RecordRequest.validate, Field.required, Field.withDefault, isSource, isTimestamp, isTags, gather]
  rfl

theorem RecordRequest.valid_of_validate {request : RecordRequest}
    (ok : RecordRequest.validate isFinal parse now raw = .ok request) : request.Valid now := by
  obtain ⟨⟨long, short, free⟩, past, few, -⟩ := RecordRequest.validate_ok ok
  exact ⟨long, short, fun reserved => free (lower_mem_reserved_iff.mpr reserved), past, few⟩

theorem UpdateRecordRequest.validate_ok {request : UpdateRecordRequest}
    (ok : UpdateRecordRequest.validate isFinal parse now raw = .ok request) :
    (∀ source, request.source = some source → SourceValid isFinal source) ∧
    (∀ timestamp, request.timestamp = some timestamp → timestamp ≤ now) ∧
    ∀ tags, request.tags = some tags → TagsValid isFinal tags := by
  obtain ⟨values, gathered, rfl⟩ := map_eq_ok ok
  obtain ⟨source, timestamp, -, tags⟩ := gather_eq_ok_iff.mp gathered
  refine ⟨fun value same => ?_, fun value same => ?_, fun value same => ?_⟩
  · obtain ⟨given, valid⟩ := Field.optional_ok (source.trans (congrArg Except.ok same))
    exact validateSource_ok valid
  · obtain ⟨given, valid⟩ := Field.optional_ok (timestamp.trans (congrArg Except.ok same))
    exact validateTimestamp_ok valid
  · obtain ⟨given, valid⟩ := Field.optional_ok (tags.trans (congrArg Except.ok same))
    exact validateTags_ok valid

end DataPipeline.Ingestor
