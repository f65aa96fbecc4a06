import DataPipeline.Ingestor.Validation
import DataPipeline.Library.Instant

/-! Timestamps with an offset from UTC under the three schemas.

The validators drop the offset and keep the fields, which show UTC only where
the offset is zero. Storage compares these fields, and so does the check for
the future.
-/

set_option autoImplicit false

namespace DataPipeline.Ingestor

open Calendar Encoding

inductive Schema where
  | record
  | update
  | upsert
  deriving DecidableEq

/-- What a validated body has for the columns of the key; an update may lack either. -/
structure Stored where
  source : Option String
  timestamp : Option DateTime
  deriving DecidableEq

variable (isFinal : List Char → List Char → Bool) (parse : Json → Option Stamp)

namespace Schema

def validate (now : DateTime) (raw : RawRequest) : Schema → Except (List FieldError) Stored
  | .record => (RecordRequest.validate isFinal parse now raw).map fun request => ⟨request.source, request.timestamp⟩
  | .update =>
    (UpdateRecordRequest.validate isFinal parse now raw).map fun request => ⟨request.source, request.timestamp⟩
  | .upsert => (UpsertRequest.validate isFinal parse now raw).map fun request => ⟨request.source, request.timestamp⟩

/-- Whether all fields but the timestamp are as the schema asks. -/
def OthersValid (raw : RawRequest) : Schema → Prop
  | .record | .upsert =>
    (raw.source.required (validateSource isFinal)).isOk ∧
      (raw.data.required (Except.ok : _ → Except Problem _)).isOk ∧
      (raw.tags.withDefault [] (validateTags isFinal)).isOk
  | .update =>
    (raw.source.optional (validateSource isFinal)).isOk ∧
      (raw.data.optional (Except.ok : _ → Except Problem _)).isOk ∧ (raw.tags.optional (validateTags isFinal)).isOk

end Schema

structure Submission where
  schema : Schema
  raw : RawRequest
  timestamp : RawTimestamp
  stamp : Stamp
  offset : Int
  now : DateTime
  given : raw.timestamp = .value timestamp
  understood : timestamp.read parse = some stamp
  aware : stamp.offset = some offset

namespace Submission

variable {parse}

def validate (submission : Submission parse) : Except (List FieldError) Stored :=
  submission.schema.validate isFinal parse submission.now submission.raw

def futureError : FieldError := ⟨"timestamp", .valueError futureMessage⟩

def RejectedAsFuture (submission : Submission parse) : Prop :=
  ∃ errors, submission.validate isFinal = .error errors ∧ futureError ∈ errors

/-- What is stored is the UTC wall clock of the instant, and later instants than the clock's are refused. -/
def Normalised (submission : Submission parse) : Prop :=
  (∀ stored, submission.validate isFinal = .ok stored →
    ∃ time, stored.timestamp = some time ∧ time.microseconds = submission.stamp.instant) ∧
  (submission.RejectedAsFuture isFinal ↔ submission.now.microseconds < submission.stamp.instant)

/-- What is stored of two accepted bodies compares as the two instants do. -/
def Consistent (first second : Submission parse) : Prop :=
  ∀ stored other, first.validate isFinal = .ok stored → second.validate isFinal = .ok other →
    (first.stamp.instant = second.stamp.instant → stored.source = other.source → stored = other) ∧
    ∃ time later, stored.timestamp = some time ∧ other.timestamp = some later ∧
      (time < later ↔ first.stamp.instant < second.stamp.instant)

/-- The offset makes no difference: it is zero, or the body is refused for the
future with and without it, or for another field only. -/
def Indifferent (submission : Submission parse) : Prop :=
  submission.offset = 0 ∨
  (submission.now < submission.stamp.moment ∧ submission.now.microseconds < submission.stamp.instant) ∨
  (submission.stamp.moment ≤ submission.now ∧ submission.stamp.instant ≤ submission.now.microseconds ∧
    ¬ submission.schema.OthersValid isFinal submission.raw)

/-! ## What a schema makes of a timestamp -/

variable {isFinal} {submission : Submission parse}

theorem validateTimestamp_eq (submission : Submission parse) :
    validateTimestamp parse submission.now submission.timestamp =
      if submission.now < submission.stamp.moment then .error (.valueError futureMessage)
      else .ok submission.stamp.moment := by
  have understood := submission.understood
  unfold validateTimestamp
  cases shape : submission.timestamp with
  | json value =>
    rw [shape] at understood
    rw [normalizeTimestamp, understood]
    rfl
  -- The offset goes before the datetime is read; the moment is the same.
  | datetime stamp =>
    rw [shape] at understood
    cases understood
    rfl

variable (isFinal)

theorem validate_shape (submission : Submission parse) :
    ∃ (α β γ δ : Type) (source : Except Problem α) (wrap : DateTime → β) (data : Except Problem γ)
      (tags : Except Problem δ) (stored : α × β × γ × δ → Stored),
      submission.validate isFinal =
        (gather source ((validateTimestamp parse submission.now submission.timestamp).map wrap) data tags).map stored ∧
      (∀ first time third fourth, (stored (first, wrap time, third, fourth)).timestamp = some time) ∧
      (submission.schema.OthersValid isFinal submission.raw ↔ source.isOk ∧ data.isOk ∧ tags.isOk) := by
  have mapped : ∀ {α β γ : Type} (first : α → β) (second : β → γ) (result : Except (List FieldError) α),
      (result.map first).map second = result.map fun value => second (first value) := by
    intro α β γ first second result
    cases result <;> rfl
  have unchanged : ∀ result : Except Problem DateTime, result.map id = result := by
    intro result
    cases result <;> rfl
  have given := submission.given
  unfold validate Schema.validate
  cases submission.schema with
  | record | upsert =>
    refine ⟨String, DateTime, List (Text × Json), List String, submission.raw.source.required (validateSource isFinal),
      id, submission.raw.data.required .ok, submission.raw.tags.withDefault [] (validateTags isFinal),
      fun values => ⟨values.1, values.2.1⟩, ?_, fun _ _ _ _ => rfl, Iff.rfl⟩
    simp only [UpsertRequest.validate, RecordRequest.validate, mapped, given, unchanged, Field.withDefault]
  | update =>
    refine ⟨Option String, Option DateTime, Option (List (Text × Json)), Option (List String),
      submission.raw.source.optional (validateSource isFinal), some, submission.raw.data.optional .ok,
      submission.raw.tags.optional (validateTags isFinal), fun values => ⟨values.1, values.2.1⟩, ?_,
      fun _ _ _ _ => rfl, Iff.rfl⟩
    simp only [UpdateRecordRequest.validate, mapped, given, Field.optional]

theorem rejected_of_later (later : submission.now < submission.stamp.moment) :
    submission.RejectedAsFuture isFinal := by
  obtain ⟨α, β, γ, δ, source, wrap, data, tags, stored, shape, -, -⟩ := submission.validate_shape isFinal
  rw [validateTimestamp_eq, if_pos later] at shape
  obtain ⟨errors, gathered, member⟩ := gather_of_error source data tags
    (rfl : Except.map wrap (.error (.valueError futureMessage)) = .error (.valueError futureMessage))
  exact ⟨errors, by rw [shape, gathered]; rfl, member⟩

theorem validate_of_not_later (notLater : ¬ submission.now < submission.stamp.moment) :
    ¬ submission.RejectedAsFuture isFinal ∧
    ((submission.schema.OthersValid isFinal submission.raw ∧
      ∃ stored, submission.validate isFinal = .ok stored ∧ stored.timestamp = some submission.stamp.moment) ∨
    (¬ submission.schema.OthersValid isFinal submission.raw ∧
      ∃ errors, submission.validate isFinal = .error errors)) := by
  obtain ⟨α, β, γ, δ, source, wrap, data, tags, stored, shape, keeps, others⟩ :=
    submission.validate_shape isFinal
  rw [validateTimestamp_eq, if_neg notLater] at shape
  unfold RejectedAsFuture
  rcases gather_of_ok source data tags
      (rfl : Except.map wrap (.ok submission.stamp.moment) = .ok (wrap submission.stamp.moment)) with
    ⟨first, third, fourth, gathered, valid⟩ | ⟨errors, gathered, elsewhere, invalid⟩
  · rw [gathered] at shape
    refine ⟨?_, .inl ⟨others.mpr valid, _, shape, keeps first _ third fourth⟩⟩
    rintro ⟨errors, rejected, -⟩
    rw [shape] at rejected
    cases rejected
  · rw [gathered] at shape
    refine ⟨?_, .inr ⟨fun valid => invalid (others.mp valid), errors, shape⟩⟩
    rintro ⟨own, rejected, member⟩
    rw [shape] at rejected
    cases rejected
    exact elsewhere futureError member rfl

variable {isFinal}

theorem instant_eq (submission : Submission parse) :
    submission.stamp.instant = submission.stamp.moment.microseconds - submission.offset := by
  rw [Stamp.instant, submission.aware, Option.getD_some]

theorem normalised_iff : submission.Normalised isFinal ↔ submission.Indifferent isFinal := by
  have instant := submission.instant_eq
  have order : submission.now < submission.stamp.moment ↔
      submission.now.microseconds < submission.stamp.moment.microseconds := DateTime.microseconds_lt.symm
  unfold Normalised Indifferent
  by_cases later : submission.now < submission.stamp.moment
  · have rejected := rejected_of_later isFinal later
    have notAccepted : ∀ stored, submission.validate isFinal ≠ .ok stored := by
      obtain ⟨errors, rejected, -⟩ := rejected
      intro stored accepted
      rw [rejected] at accepted
      cases accepted
    have notPast : ¬ submission.stamp.moment ≤ submission.now := not_le.mpr later
    simp only [iff_true_intro rejected, true_iff, later, true_and, notPast, false_and, or_false]
    constructor
    · intro right
      exact .inr right.2
    · intro indifferent
      refine ⟨fun stored accepted => absurd accepted (notAccepted stored), ?_⟩
      have := order.mp later
      omega
  · obtain ⟨notRejected, outcome⟩ := validate_of_not_later isFinal later
    have past : submission.stamp.moment ≤ submission.now := not_lt.mp later
    have notAhead : ¬ submission.now.microseconds < submission.stamp.moment.microseconds :=
      fun ahead => later (order.mpr ahead)
    simp only [iff_false_intro notRejected, false_iff, later, false_and, past, true_and, false_or]
    rcases outcome with ⟨valid, stored, accepted, kept⟩ | ⟨invalid, errors, rejected⟩
    -- The moment is stored, so the offset must be zero.
    · simp only [valid, not_true, and_false, or_false, accepted, Except.ok.injEq, forall_eq', kept,
        Option.some.injEq, exists_eq_left']
      omega
    · simp only [rejected, reduceCtorEq, false_implies, implies_true, true_and, invalid, not_false_eq_true, and_true]
      omega

/-- Where each is treated right, the stored values compare as the instants do. -/
theorem consistent_of_normalised {first second : Submission parse} (firstRight : first.Normalised isFinal)
    (secondRight : second.Normalised isFinal) : Consistent isFinal first second := by
  intro stored other firstAccepted secondAccepted
  obtain ⟨time, kept, instant⟩ := firstRight.1 stored firstAccepted
  obtain ⟨later, otherKept, otherInstant⟩ := secondRight.1 other secondAccepted
  constructor
  · intro same sameSource
    have sameTime : time = later := DateTime.microseconds_injective (by rw [instant, otherInstant, same])
    obtain ⟨source, timestamp⟩ := stored
    obtain ⟨otherSource, otherTimestamp⟩ := other
    simp only at kept otherKept sameSource
    rw [kept, otherKept, sameSource, sameTime]
  · refine ⟨time, later, kept, otherKept, ?_⟩
    rw [← instant, ← otherInstant, DateTime.microseconds_lt]

/-- All that is said of UTC holds of two bodies exactly if neither offset makes a difference. -/
theorem utc_iff (first second : Submission parse) :
    (first.Normalised isFinal ∧ second.Normalised isFinal ∧ Consistent isFinal first second) ↔
      first.Indifferent isFinal ∧ second.Indifferent isFinal := by
  rw [← normalised_iff, ← normalised_iff]
  constructor
  · rintro ⟨firstRight, secondRight, -⟩
    exact ⟨firstRight, secondRight⟩
  · rintro ⟨firstRight, secondRight⟩
    exact ⟨firstRight, secondRight, consistent_of_normalised firstRight secondRight⟩

def readIso : Json → Option Stamp
  | .str text => fromisoformat text
  | _ => none

def bodyAt (text : String) : RawRequest :=
  ⟨.value "sensor", .value (.json (.str (Text.ofString text))), .value [], .missing⟩

def atEight : Submission readIso :=
  ⟨.record, bodyAt "2026-01-01T08:00:00Z", _, ⟨january 8, some 0⟩, _, january 12, rfl, by decide +kernel, rfl⟩

def atTenFurtherEast : Submission readIso :=
  ⟨.record, bodyAt "2026-01-01T10:00:00+02:00", _, ⟨january 10, some 7200000000⟩, _, january 12, rfl,
    by decide +kernel, rfl⟩

theorem offset_is_dropped :
    atEight.stamp.instant = atTenFurtherEast.stamp.instant ∧
    (∃ stored other, atEight.validate (fun _ _ => false) = .ok stored ∧
      atTenFurtherEast.validate (fun _ _ => false) = .ok other ∧ stored.source = other.source ∧ stored ≠ other) ∧
    ¬ (atEight.Normalised (fun _ _ => false) ∧ atTenFurtherEast.Normalised (fun _ _ => false) ∧
      Consistent (fun _ _ => false) atEight atTenFurtherEast) := by
  have same : atEight.stamp.instant = atTenFurtherEast.stamp.instant := by decide +kernel
  have accepted : atEight.validate (fun _ _ => false) = .ok ⟨"sensor", january 8⟩ := by decide +kernel
  have otherAccepted : atTenFurtherEast.validate (fun _ _ => false) = .ok ⟨"sensor", january 10⟩ := by decide +kernel
  have different : (⟨"sensor", january 8⟩ : Stored) ≠ ⟨"sensor", january 10⟩ := by decide +kernel
  refine ⟨same, ⟨_, _, accepted, otherAccepted, rfl, different⟩, ?_⟩
  rintro ⟨-, -, consistent⟩
  exact different ((consistent _ _ accepted otherAccepted).1 same rfl)

end Submission

end DataPipeline.Ingestor
