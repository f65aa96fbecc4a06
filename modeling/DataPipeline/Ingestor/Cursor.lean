import DataPipeline.Library.Base64
import DataPipeline.Library.Calendar
import DataPipeline.Library.Json

/-! The pagination cursors of `ingestor/crud.py`: an id and a timestamp as JSON in base64. -/

set_option autoImplicit false

namespace DataPipeline.Ingestor

open Encoding Calendar

/-- What `_decode_cursor` raises: it catches a `ValueError` of any kind only. -/
inductive CursorError where
  | attributeError
  | typeError
  | recursionError
  deriving DecidableEq

def cursorJson (recordId : Int) (timestamp : DateTime) : Text :=
  Json.dumpsObject [(Text.ofString "id", Json.dumpsInt recordId),
    (Text.ofString "timestamp", Json.dumpsString timestamp.isoformat)]

/-- `_encode_cursor`. A timestamp is never falsy, and None stands for an error of the encoding. -/
def encodeCursor (recordId : Int) (timestamp : DateTime) : Option Text :=
  (encodeUtf8 (cursorJson recordId timestamp)).map Base64.b64encode

/-- `_decode_cursor`, with room for `depth` nested containers on the stack. -/
def decodeCursor (depth : Nat) (cursor : Option Text) : Except CursorError (Option (Json × Option Stamp)) :=
  match cursor with
  | none | some [] => .ok none
  | some cursor =>
    match (Base64.b64decode cursor).bind (decodeUtf8 false) with
    | none => .ok none
    | some jsonStr =>
      match Json.loads depth jsonStr with
      | .error .value => .ok none
      | .error .recursion => .error .recursionError
      -- `get` answers None for a key that is missing.
      | .ok (.dict data) =>
        let recordId := (Json.get data "id").getD .null
        let tsStr := (Json.get data "timestamp").getD .null
        -- A timestamp that is falsy is not parsed, whatever its type.
        if tsStr.truthy then
          match tsStr with
          | .str text =>
            match fromisoformat text with
            | some timestamp => .ok (some (recordId, some timestamp))
            | none => .ok none
          | _ => .error .typeError
        else .ok (some (recordId, none))
      -- Only a dict has `get`.
      | .ok _ => .error .attributeError

/-! ## Round trip -/

theorem isPlain_isoformat (timestamp : DateTime) : Json.IsPlain timestamp.isoformat := by
  intro c member
  rcases mem_isoformat member with digit | other
  · have := isDigit_iff.mp digit
    omega
  · omega

theorem cursorJson_ascii (recordId : Int) (timestamp : DateTime) : IsAscii (cursorJson recordId timestamp) := by
  apply Json.dumpsObject_ascii
  simp only [List.forall_mem_cons]
  exact ⟨Json.dumpsInt_ascii recordId, Json.dumpsString_ascii timestamp.isoformat, by simp⟩

theorem short_id {recordId : Int} (fits : -2 ^ 63 ≤ recordId ∧ recordId < 2 ^ 63) :
    (decimal recordId.natAbs).length ≤ 4300 := by
  have magnitude : recordId.natAbs < 10 ^ 19 := by omega
  exact (length_decimal_le (by decide) magnitude).trans (by decide)

def cursorEntries {recordId : Int} (fits : -2 ^ 63 ≤ recordId ∧ recordId < 2 ^ 63) (timestamp : DateTime) :
    Json.Entry × Json.Entry :=
  (⟨Text.ofString "id", Json.dumpsInt recordId, .int recordId, by unfold Json.IsPlain; decide,
      Json.reads_dumpsInt (short_id fits)⟩,
    ⟨Text.ofString "timestamp", Json.dumpsString timestamp.isoformat, .str timestamp.isoformat,
      by unfold Json.IsPlain; decide, Json.reads_dumpsString (isPlain_isoformat timestamp)⟩)

theorem loads_cursorJson {recordId : Int} (fits : -2 ^ 63 ≤ recordId ∧ recordId < 2 ^ 63) (timestamp : DateTime)
    (depth : Nat) :
    Json.loads (depth + 1) (cursorJson recordId timestamp) =
      .ok (.dict [(Text.ofString "id", .int recordId), (Text.ofString "timestamp", .str timestamp.isoformat)]) := by
  have distinct : [Text.ofString "id", Text.ofString "timestamp"].Nodup := by decide
  exact Json.loads_written (cursorEntries fits timestamp).1 [(cursorEntries fits timestamp).2] distinct depth

theorem encodeCursor_eq (recordId : Int) (timestamp : DateTime) :
    encodeCursor recordId timestamp =
      some (Base64.b64encode ((cursorJson recordId timestamp).map Nat.toUInt8)) := by
  rw [encodeCursor, encodeUtf8_ascii (cursorJson_ascii recordId timestamp), Option.map_some]

theorem decodeCursor_encodeCursor {recordId : Int} (fits : -2 ^ 63 ≤ recordId ∧ recordId < 2 ^ 63)
    (timestamp : DateTime) (depth : Nat) :
    ∃ cursor, encodeCursor recordId timestamp = some cursor ∧
      decodeCursor (depth + 1) (some cursor) = .ok (some (.int recordId, some ⟨timestamp, none⟩)) := by
  have ascii := cursorJson_ascii recordId timestamp
  refine ⟨_, encodeCursor_eq recordId timestamp, ?_⟩
  -- Every character of the text is ASCII, so the bytes are the codes.
  have decoded : (Base64.b64decode (Base64.b64encode ((cursorJson recordId timestamp).map Nat.toUInt8))).bind
      (decodeUtf8 false) = some (cursorJson recordId timestamp) := by
    rw [Base64.b64decode_b64encode, Option.bind_some, decodeUtf8_ascii ascii]
  -- The text starts with a brace, so that the cursor is not empty.
  have nonempty : Base64.b64encode ((cursorJson recordId timestamp).map Nat.toUInt8) ≠ [] :=
    Base64.b64encode_ne_nil (by simp [cursorJson, Json.dumpsObject])
  have notFalsy : (Json.str timestamp.isoformat).truthy = true := by
    simp [Json.truthy, DateTime.isoformat]
  have id : Json.get [(Text.ofString "id", .int recordId), (Text.ofString "timestamp", .str timestamp.isoformat)]
      "id" = some (.int recordId) := rfl
  have name : Json.get [(Text.ofString "id", .int recordId), (Text.ofString "timestamp", .str timestamp.isoformat)]
      "timestamp" = some (.str timestamp.isoformat) := rfl
  unfold decodeCursor
  split
  next missing => cases missing
  next empty => exact absurd (Option.some.inj empty) nonempty
  next cursor _ same =>
    cases same
    simp only [decoded, loads_cursorJson fits, id, name, Option.getD_some, notFalsy, ↓reduceIte,
      fromisoformat_isoformat]

/-! ## Cursors as query values -/

theorem dumpsInt_lettered {recordId : Int} {c : Nat} (member : c ∈ Json.dumpsInt recordId) :
    isDigit c = true ∨ c = 45 := by
  unfold Json.dumpsInt at member
  split at member
  · rcases List.mem_cons.mp member with sign | digit
    · exact .inr sign
    · exact .inl (isDigit_of_mem_decimal digit)
  · exact .inl (isDigit_of_mem_decimal member)

theorem cursorJson_eq (recordId : Int) (timestamp : DateTime) :
    cursorJson recordId timestamp =
      [123, 34, 105, 100, 34, 58] ++ Json.dumpsInt recordId ++
        [44, 34, 116, 105, 109, 101, 115, 116, 97, 109, 112, 34, 58, 34] ++ timestamp.isoformat ++ [34, 125] := by
  have id : Json.dumpsString (Text.ofString "id") = [34, 105, 100, 34] := by decide
  have name : Json.dumpsString (Text.ofString "timestamp") =
      [34, 116, 105, 109, 101, 115, 116, 97, 109, 112, 34] := by decide
  simp only [cursorJson, Json.dumpsObject, id, name, Json.dumpsString_plain (isPlain_isoformat timestamp),
    List.map_cons, List.map_nil, List.intercalate_cons_cons, List.intercalate_singleton, List.cons_append,
    List.nil_append, List.append_assoc]

/-- The text has digits, letters and marks, and none of them ends in the bits of a sign. -/
theorem cursorJson_lettered (recordId : Int) (timestamp : DateTime) {c : Nat}
    (member : c ∈ cursorJson recordId timestamp) : c < 0x80 ∧ c % 64 < 62 := by
  have digits {d : Nat} (digit : isDigit d = true) : d < 0x80 ∧ d % 64 < 62 := by
    have := isDigit_iff.mp digit
    omega
  have opening : ∀ d ∈ [123, 34, 105, 100, 34, 58], d < 0x80 ∧ d % 64 < 62 := by decide
  have between : ∀ d ∈ [44, 34, 116, 105, 109, 101, 115, 116, 97, 109, 112, 34, 58, 34], d < 0x80 ∧ d % 64 < 62 := by
    decide
  have closing : ∀ d ∈ [34, 125], d < 0x80 ∧ d % 64 < 62 := by decide
  rw [cursorJson_eq] at member
  simp only [List.mem_append] at member
  rcases member with (((mark | id) | mark) | iso) | mark
  · exact opening c mark
  · rcases dumpsInt_lettered id with digit | rfl
    · exact digits digit
    · decide
  · exact between c mark
  · rcases mem_isoformat iso with digit | mark
    · exact digits digit
    · omega
  · exact closing c mark

theorem encodeCursor_survives {recordId : Int} {timestamp : DateTime} {cursor : Text}
    (encoded : encodeCursor recordId timestamp = some cursor) : ∀ c ∈ cursor, Base64.SurvivesQuery c := by
  rw [encodeCursor_eq] at encoded
  cases encoded
  apply Base64.b64encode_survives
  intro byte present
  obtain ⟨c, member, rfl⟩ := List.mem_map.mp present
  have lettered := cursorJson_lettered recordId timestamp member
  rwa [toNat_toUInt8 (by omega)]

theorem int64_fits (recordId : Int64) : -2 ^ 63 ≤ recordId.toInt ∧ recordId.toInt < 2 ^ 63 :=
  ⟨recordId.le_toInt, recordId.toInt_lt⟩

/-- Encoding a cursor never fails, decoding undoes it where the stack has room for one
object, no other id and timestamp have that cursor, and it needs no escape in a query. -/
theorem cursor_round_trip (recordId : Int64) (timestamp : DateTime) (depth : Nat) :
    ∃ cursor, encodeCursor recordId.toInt timestamp = some cursor ∧
      decodeCursor (depth + 1) (some cursor) = .ok (some (.int recordId.toInt, some ⟨timestamp, none⟩)) ∧
      (∀ (otherId : Int64) (otherTime : DateTime), encodeCursor otherId.toInt otherTime = some cursor →
        otherId = recordId ∧ otherTime = timestamp) ∧
      (∀ c ∈ cursor, Base64.SurvivesQuery c) ∧
      ∀ mark ∈ ['+', '/', '&', '#', '%'], mark.toNat ∉ cursor := by
  obtain ⟨cursor, encoded, decoded⟩ := decodeCursor_encodeCursor (int64_fits recordId) timestamp depth
  have survives := encodeCursor_survives encoded
  refine ⟨cursor, encoded, decoded, ?_, survives, ?_⟩
  · intro otherId otherTime same
    obtain ⟨other, otherEncoded, otherDecoded⟩ := decodeCursor_encodeCursor (int64_fits otherId) otherTime depth
    -- Both are what the one cursor decodes to.
    obtain rfl : other = cursor := Option.some.inj (otherEncoded.symm.trans same)
    have pair := otherDecoded.symm.trans decoded
    simp only [Except.ok.injEq, Option.some.injEq, Prod.mk.injEq, Json.int.injEq, Stamp.mk.injEq, and_true] at pair
    exact ⟨Int64.toInt_inj.mp pair.1, pair.2⟩
  · intro mark listed member
    have escaped : ¬ Base64.SurvivesQuery mark.toNat := by
      simp only [List.mem_cons, List.not_mem_nil, or_false] at listed
      obtain rfl | rfl | rfl | rfl | rfl := listed <;> decide
    exact escaped (survives _ member)

end DataPipeline.Ingestor
