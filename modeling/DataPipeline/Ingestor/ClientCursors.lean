import DataPipeline.Ingestor.Pagination

/-! Cursors that a client made up: which of them `ingestor/crud.py` can answer. -/

set_option autoImplicit false

namespace DataPipeline.Ingestor.ClientCursors

open Encoding Calendar Pagination

/-! ## Pages after a position -/

/-- A record that belongs on the pages after this position. An empty source filters nothing. -/
def Pending (source : Option String) (store : Store) (position : Option (DateTime ×ₗ Int)) (record : Record) : Prop :=
  Visible (source.filter (· ≠ "")) store record ∧ Keyset.Beyond position record.position

structure IsPage (limit : Nat) (source : Option String) (store : Store) (position : Option (DateTime ×ₗ Int))
    (page : Page) : Prop where
  increasing : page.records.Pairwise fun first second => first.position < second.position
  pending : ∀ record ∈ page.records, Pending source store position record
  short : page.records.length ≤ limit
  left_out : ∀ record, Pending source store position record → record ∉ page.records →
    page.records.length = limit ∧ ∀ shown ∈ page.records, shown.position < record.position
  hasMore : page.hasMore = true ↔ ∃ record, Pending source store position record ∧ record ∉ page.records

variable {depth limit : Nat} {source : Option String} {store : Store} {cursor : Text}
  {position : Option (DateTime ×ₗ Int)}

theorem sourceFilter_named (source : Option String) (record : Record) :
    sourceFilter source record = true ↔ ∀ wanted ∈ source.filter (· ≠ ""), record.source = wanted := by
  unfold sourceFilter
  split
  next => simp
  next => simp
  next wanted named =>
    have kept : (some wanted).filter (· ≠ "") = some wanted := by
      apply Option.filter_some_pos
      exact decide_eq_true named
    simp only [kept, Option.mem_def, Option.some.injEq, forall_eq', decide_eq_true_eq]

theorem isPage_of_rows {rows : List Record} {page : Page} (distinct : (rows.map Record.position).Nodup)
    (members : ∀ record, record ∈ rows ↔ Pending source store position record)
    (records : page.records = Keyset.select Record.position limit rows)
    (hasMore : page.hasMore = true ↔ limit < rows.length) : IsPage limit source store position page where
  increasing := records ▸ Keyset.increasing_select distinct
  pending := by
    intro record member
    rw [records] at member
    exact (members record).mp (Keyset.mem_of_mem_select member)
  short := by
    rw [records, Keyset.length_select]
    exact Nat.min_le_left limit rows.length
  left_out := by
    intro record pending missing
    rw [records] at missing ⊢
    have stored := (members record).mpr pending
    have after := Keyset.lt_of_not_mem_select distinct stored missing
    have more := (Keyset.lt_length_iff distinct).mpr ⟨record, stored, after⟩
    exact ⟨by rw [Keyset.length_select, Nat.min_eq_left more.le], after⟩
  hasMore := by
    rw [hasMore, Keyset.lt_length_iff distinct, records]
    constructor
    · rintro ⟨record, stored, after⟩
      exact ⟨record, (members record).mp stored, fun shown => lt_irrefl _ (after record shown)⟩
    · rintro ⟨record, pending, missing⟩
      have stored := (members record).mpr pending
      exact ⟨record, stored, Keyset.lt_of_not_mem_select distinct stored missing⟩

/-! ## Cursors that are answered -/

def decodedPosition (position : Option (DateTime ×ₗ Int)) : Option (Json × Option Stamp) :=
  position.map fun last => (.int (ofLex last).2, some ⟨(ofLex last).1, none⟩)

/-- The cursor is decoded to nothing or to an integer and a naive datetime, and
the page after it is answered for every store, limit and source. -/
def Answered (depth : Nat) (cursor : Text) : Prop :=
  ∃ position, decodeCursor depth (some cursor) = .ok (decodedPosition position) ∧
    ∀ store limit source, ∃ page, getRecordsCursorPaginated depth store (some cursor) limit source = .ok page ∧
      IsPage limit source store position page

/-- An object whose timestamp is a string with something in it; if that is a
datetime, it has no offset and comes with an integer that the id column can hold. -/
def Positional (payload : Json) : Prop :=
  ∃ data text, payload = .dict data ∧ Json.get data "timestamp" = some (.str text) ∧ text ≠ [] ∧
    ∀ timestamp offset, fromisoformat text = some ⟨timestamp, offset⟩ →
      offset = none ∧ ∃ id, Json.get data "id" = some (.int id) ∧ FitsInteger id

/-- The cursor is empty, or no JSON text in base64, or positional. -/
def Harmless (depth : Nat) (cursor : Text) : Prop :=
  cursor = [] ∨ ∀ jsonStr, (Base64.b64decode cursor).bind (decodeUtf8 false) = some jsonStr →
    Json.loads depth jsonStr = .error .value ∨ ∃ payload, Json.loads depth jsonStr = .ok payload ∧ Positional payload

def InRange (position : Option (DateTime ×ₗ Int)) : Prop := ∀ last ∈ position, FitsInteger (ofLex last).2

theorem cursorFilter_inRange (fits : InRange position) :
    ∃ beyond, cursorFilter (decodedPosition position) = .ok beyond ∧
      ∀ record : Record, beyond record = true ↔ Keyset.Beyond position record.position := by
  cases position with
  | none => exact ⟨_, rfl, fun record => iff_of_true rfl Keyset.beyond_none⟩
  | some last =>
    refine ⟨_, if_pos (fits last rfl), fun record => ?_⟩
    rw [Keyset.beyond_some, Prod.Lex.lt_iff]
    simp only [Record.position, ofLex_toLex, Bool.or_eq_true, Bool.and_eq_true, decide_eq_true_eq,
      @eq_comm _ record.timestamp]

theorem cursorFilter_outOfRange (far : ¬ InRange position) :
    cursorFilter (decodedPosition position) = .error .statement := by
  cases position with
  | none => exact absurd (fun _ member => absurd member (Option.not_mem_none _)) far
  | some last =>
    have away : ¬ FitsInteger (ofLex last).2 := by
      intro fits
      apply far
      intro other same
      rwa [← Option.some.inj same]
    exact if_neg away

/-- A cursor is answered if it is decoded to a position that the id column can be compared with. -/
theorem answered_iff_inRange :
    Answered depth cursor ↔
      ∃ position, decodeCursor depth (some cursor) = .ok (decodedPosition position) ∧ InRange position := by
  constructor
  · rintro ⟨position, decoded, pages⟩
    refine ⟨position, decoded, ?_⟩
    by_contra far
    -- The statement fails whatever the table holds.
    obtain ⟨page, fetched, -⟩ := pages Table.empty 1 none
    simp only [getRecordsCursorPaginated, decoded, cursorFilter_outOfRange far, Except.mapError, bind,
      Except.bind] at fetched
    cases fetched
  · rintro ⟨position, decoded, fits⟩
    refine ⟨position, decoded, fun store limit source => ?_⟩
    obtain ⟨beyond, filtered, after⟩ := cursorFilter_inRange fits
    obtain ⟨page, fetched, records, hasMore, -⟩ :=
      getRecordsCursorPaginated_decoded store limit source decoded filtered rfl
    refine ⟨page, fetched, isPage_of_rows ?_ ?_ records hasMore⟩
    · apply List.Nodup.of_map fun position => (ofLex position).2
      rw [List.map_map]
      exact (List.filter_sublist.map Record.id).nodup store.ids_nodup
    · intro record
      simp only [List.mem_filter, Bool.and_eq_true, decide_eq_true_eq, after, sourceFilter_named, Pending, Visible,
        Record.Active]
      tauto

/-! ## What a cursor carries -/

def decodePayload : Json → Except CursorError (Option (Json × Option Stamp))
  | .dict data =>
    let recordId := (Json.get data "id").getD .null
    let tsStr := (Json.get data "timestamp").getD .null
    if tsStr.truthy then
      match tsStr with
      | .str text =>
        match fromisoformat text with
        | some timestamp => .ok (some (recordId, some timestamp))
        | none => .ok none
      | _ => .error .typeError
    else .ok (some (recordId, none))
  | _ => .error .attributeError

theorem decodeCursor_some (nonempty : cursor ≠ []) :
    decodeCursor depth (some cursor) =
      match (Base64.b64decode cursor).bind (decodeUtf8 false) with
      | none => .ok none
      | some jsonStr =>
        match Json.loads depth jsonStr with
        | .error .value => .ok none
        | .error .recursion => .error .recursionError
        | .ok payload => decodePayload payload := by
  unfold decodeCursor
  split
  next missing => cases missing
  next empty => exact absurd (Option.some.inj empty) nonempty
  next given _ same =>
    cases same
    cases (Base64.b64decode cursor).bind (decodeUtf8 false) with
    | none => rfl
    | some jsonStr =>
      dsimp only
      cases Json.loads depth jsonStr with
      | error failure => cases failure <;> rfl
      | ok payload => cases payload <;> rfl

theorem decodePayload_str {data : List (Text × Json)} {text : Text}
    (named : Json.get data "timestamp" = some (.str text)) (nonempty : text ≠ []) :
    decodePayload (.dict data) = .ok ((fromisoformat text).map fun timestamp =>
      ((Json.get data "id").getD .null, some timestamp)) := by
  have truthy : (Json.str text).truthy = true := decide_eq_true nonempty
  simp only [decodePayload, named, Option.getD_some, truthy, ↓reduceIte]
  cases fromisoformat text <;> rfl

theorem given_of_getD {found : Option Json} {value : Json} (answered : found.getD .null = value)
    (shown : value ≠ .null) : found = some value := by
  cases found with
  | none => exact absurd answered.symm shown
  | some other => exact congrArg some answered

theorem dict_of_decodePayload {payload : Json} (decoded : decodePayload payload = .ok (decodedPosition position)) :
    ∃ data text, payload = .dict data ∧ Json.get data "timestamp" = some (.str text) ∧ text ≠ [] := by
  cases payload with
  | dict data =>
    simp only [decodePayload] at decoded
    split at decoded
    next given =>
      split at decoded
      next text shape =>
        refine ⟨data, text, rfl, ?_, ?_⟩
        · exact given_of_getD shape Json.noConfusion
        · rw [shape] at given
          exact of_decide_eq_true given
      next => cases decoded
    next =>
      -- Without a timestamp the answer is a pair, and it is that of no position.
      cases position <;> simp [decodedPosition] at decoded
  | _ => cases decoded

theorem positional_iff {payload : Json} :
    Positional payload ↔ ∃ position, decodePayload payload = .ok (decodedPosition position) ∧ InRange position := by
  constructor
  · rintro ⟨data, text, rfl, named, nonempty, dated⟩
    rw [decodePayload_str named nonempty]
    cases parsed : fromisoformat text with
    | none => exact ⟨none, rfl, fun _ member => absurd member (Option.not_mem_none _)⟩
    | some stamp =>
      obtain ⟨timestamp, offset⟩ := stamp
      obtain ⟨rfl, id, found, fits⟩ := dated timestamp offset parsed
      refine ⟨some (toLex (timestamp, id)), by rw [found]; rfl, ?_⟩
      intro last same
      rwa [← Option.some.inj same]
  · rintro ⟨position, decoded, fits⟩
    obtain ⟨data, text, rfl, named, nonempty⟩ := dict_of_decodePayload decoded
    refine ⟨data, text, rfl, named, nonempty, fun timestamp offset parsed => ?_⟩
    rw [decodePayload_str named nonempty, parsed, Option.map_some] at decoded
    cases position with
    | none => cases decoded
    | some last =>
      simp only [decodedPosition, Option.map_some, Except.ok.injEq, Option.some.injEq, Prod.mk.injEq,
        Stamp.mk.injEq] at decoded
      exact ⟨decoded.2.2, (ofLex last).2, given_of_getD decoded.1 Json.noConfusion, fits last rfl⟩

theorem harmless_iff_inRange :
    Harmless depth cursor ↔
      ∃ position, decodeCursor depth (some cursor) = .ok (decodedPosition position) ∧ InRange position := by
  have start : InRange none := fun _ member => absurd member (Option.not_mem_none _)
  unfold Harmless
  by_cases nonempty : cursor = []
  · subst nonempty
    exact iff_of_true (.inl rfl) ⟨none, rfl, start⟩
  · simp only [nonempty, false_or, decodeCursor_some nonempty]
    cases (Base64.b64decode cursor).bind (decodeUtf8 false) with
    | none => exact iff_of_true (fun _ missing => by cases missing) ⟨none, rfl, start⟩
    | some jsonStr =>
      simp only [Option.some.injEq, forall_eq']
      cases Json.loads depth jsonStr with
      | error failure =>
        cases failure with
        | value => exact iff_of_true (.inl rfl) ⟨none, rfl, start⟩
        | recursion =>
          refine iff_of_false ?_ ?_
          · rintro (other | ⟨payload, loaded, -⟩)
            · cases other
            · cases loaded
          · rintro ⟨position, decoded, -⟩
            cases decoded
      | ok payload =>
        simp only [reduceCtorEq, Except.ok.injEq, exists_eq_left', false_or]
        exact positional_iff

/-- A cursor is answered exactly if it is harmless. -/
theorem answered_iff_harmless (depth : Nat) (cursor : Text) : Answered depth cursor ↔ Harmless depth cursor :=
  answered_iff_inRange.trans harmless_iff_inRange.symm

/-- The cursor `MQ==` is the number 1 in base64, which has no `get`. -/
theorem number_as_cursor : decodeCursor 1 (some (Text.ofString "MQ==")) = .error .attributeError ∧
    getRecordsCursorPaginated 1 Table.empty (some (Text.ofString "MQ==")) 50 none =
      .error (.cursor .attributeError) ∧
    ¬ ∀ depth cursor, Answered depth cursor := by
  have raised : decodeCursor 1 (some (Text.ofString "MQ==")) = .error .attributeError := by decide +kernel
  refine ⟨raised, ?_, fun answered => ?_⟩
  · simp only [getRecordsCursorPaginated, raised, Except.mapError, bind, Except.bind]
  · obtain ⟨position, decoded, -⟩ := answered 1 (Text.ofString "MQ==")
    rw [raised] at decoded
    cases decoded

end DataPipeline.Ingestor.ClientCursors
