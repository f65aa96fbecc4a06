import DataPipeline.Library.Markup
import DataPipeline.Library.Url

/-! The link with which `partials/records_rows.html` asks for the rows after its own, and
`records_partial`, which answers it. The source goes into the link as markup but not as
part of a URL.
-/

set_option autoImplicit false

namespace DataPipeline.Dashboard.Continuation

open Encoding Markup Url

structure PyString where
  codes : Text
  bounded : ∀ c ∈ codes, c < 0x110000

/-! ## The page -/

/-- `str` of a number, which raises an error beyond 4300 digits. -/
def str (n : Nat) : Option Text := if (decimal n).length ≤ 4300 then some (decimal n) else none

def link (skip source processed : Text) : Text :=
  Text.ofString "/partials/records?skip=" ++ escape skip ++ Text.ofString "&source=" ++ escape source ++
    Text.ofString "&processed=" ++ escape processed

def processedText (processed : Bool) : Text := if processed then Text.ofString "True" else []

/-- The attribute of the last row. There is none if the page is not sent, as it can not
be rendered or not be encoded. -/
def hxGet (nextSkip : Nat) (source : Option Text) (processed : Bool) : Option Text := do
  let skip ← str nextSkip
  let link := link skip (source.getD []) (processedText processed)
  -- A lone surrogate has no bytes.
  if (encodeUtf8 link).isSome then some link else none

/-! ## The browser -/

/-- What htmx asks for is `path.split("#")[0]`, as a table row has no values to add. -/
def pathNoAnchor (path : Text) : Text := path.takeWhile (· ≠ 35)

/-- The query that is sent for a link, which a quotation mark ends. -/
def sentQuery (link : Text) : Text := requestQuery (pathNoAnchor (attributeValue (link ++ [34])))

/-! ## The server -/

/-- How the parameters are validated: none is an error. -/
structure Pydantic where
  int : Text → Option Int
  bool : Text → Option Bool

def asciiLower (c : Nat) : Nat := if 65 ≤ c ∧ c ≤ 90 then c + 32 else c

def trueWords : List Text := ["1", "t", "y", "on", "yes", "true"].map Text.ofString

def falseWords : List Text := ["0", "f", "n", "no", "off", "false"].map Text.ofString

structure Pydantic.Documented (pydantic : Pydantic) : Prop where
  int : ∀ n : Nat, (decimal n).length ≤ 4300 → pydantic.int (decimal n) = some (n : Int)
  trueWord : ∀ text, pydantic.bool text = some true ↔ text.map asciiLower ∈ trueWords
  falseWord : ∀ text, pydantic.bool text = some false ↔ text.map asciiLower ∈ falseWords

structure Request where
  skip : Int
  source : Option Text
  processed : Bool
  deriving DecidableEq

/-- A query parameter. The default does not take the place of an empty one. -/
def parameter {Value : Type} (validate : Text → Option Value) (default : Value) : Option Text → Option Value
  | some text => validate text
  | none => some default

/-- `records_partial`: the arguments of a call, or none for the answer 422. -/
def recordsPartial (pydantic : Pydantic) (query : Text) : Option Request := do
  let items := parseQsl query
  let skip ← parameter (fun text => (pydantic.int text).filter (0 ≤ ·)) 0 (lastValue items (Text.ofString "skip"))
  let processed ← parameter pydantic.bool false (lastValue items (Text.ofString "processed"))
  -- Any text is a source.
  return { skip, source := lastValue items (Text.ofString "source"), processed }

/-- The next page is asked for with the filters of this one. No source is the same as an
empty one. -/
def RoundTrips (pydantic : Pydantic) (nextSkip : Nat) (source : Option PyString) (processed : Bool) : Prop :=
  ∃ link request, hxGet nextSkip (source.map PyString.codes) processed = some link ∧
    recordsPartial pydantic (sentQuery link) = some request ∧ request.skip = nextSkip ∧
    request.processed = processed ∧ request.source.getD [] = (source.map PyString.codes).getD []

/-- Text that means the same in a URL: no lone surrogates, no null characters, tabs and
newlines, none of `#`, `&` and `+`, and no percent sign before two hexadecimal digits. -/
structure Plain (text : Text) : Prop where
  noSurrogate : ∀ c ∈ text, ¬(0xD800 ≤ c ∧ c < 0xE000)
  noSyntax : ∀ c ∈ text, c ∉ [0, 9, 10, 13, 35, 38, 43]
  noEscape : hasEscape text = false

variable {pydantic : Pydantic} {nextSkip : Nat} {skip source processed text : Text}

theorem processedText_plain (processed : Bool) :
    ∀ c ∈ processedText processed, 32 < c ∧ c < 0x80 ∧ c ∉ [35, 37, 38, 43] := by
  cases processed <;> simp [processedText, Text.ofString]

theorem processedText_solid (processed : Bool) : ∀ c ∈ processedText processed, 32 < c ∧ c ≠ 35 := by
  intro c member
  obtain ⟨solid, _, others⟩ := processedText_plain processed c member
  exact ⟨solid, fun same => others (by simp [same])⟩

theorem decimal_digits (n : Nat) : ∀ c ∈ decimal n, isDigit c = true := fun _ member => isDigit_of_mem_decimal member

/-! ## What is encoded -/

theorem isSome_encodeUtf8Code (c : Nat) : (encodeUtf8Code c).isSome = true ↔ ¬(0xD800 ≤ c ∧ c < 0xE000) := by
  unfold encodeUtf8Code
  split_ifs with ascii two surrogate three
  · simp only [Option.isSome_some, true_iff]
    omega
  · simp only [Option.isSome_some, true_iff]
    omega
  · simp [surrogate]
  · simp only [Option.isSome_some, true_iff]
    exact surrogate
  · simp only [Option.isSome_some, true_iff]
    exact surrogate

theorem isSome_encodeUtf8_iff (text : Text) :
    (encodeUtf8 text).isSome = true ↔ ∀ c ∈ text, ¬(0xD800 ≤ c ∧ c < 0xE000) := by
  rw [isSome_encodeUtf8, List.all_eq_true]
  simp only [isSome_encodeUtf8Code]

theorem mem_escape {c : Nat} (surrogate : 0xD800 ≤ c) : c ∈ escape text ↔ c ∈ text := by
  rw [escape, List.mem_flatMap]
  constructor
  · rintro ⟨other, listed, place⟩
    unfold escapeChar at place
    have ascii {name : String} (plain : ∀ c ∈ Text.ofString name, c < 0x80) : c ∉ Text.ofString name := by
      intro member
      have small := plain c member
      omega
    split_ifs at place
    · exact absurd place (ascii (by simp [Text.ofString]))
    · exact absurd place (ascii (by simp [Text.ofString]))
    · exact absurd place (ascii (by simp [Text.ofString]))
    · exact absurd place (ascii (by simp [Text.ofString]))
    · exact absurd place (ascii (by simp [Text.ofString]))
    · rwa [List.mem_singleton.mp place]
  · intro listed
    refine ⟨c, listed, ?_⟩
    rw [escapeChar, if_neg (by omega), if_neg (by omega), if_neg (by omega), if_neg (by omega), if_neg (by omega)]
    exact List.mem_singleton_self c

theorem isSome_encodeUtf8_link (digits : IsAscii skip) (word : IsAscii processed) :
    (encodeUtf8 (link skip source processed)).isSome = true ↔ ∀ c ∈ source, ¬(0xD800 ≤ c ∧ c < 0xE000) := by
  have literal {text : Text} (plain : ∀ c ∈ text, c < 0x80) {c : Nat} (member : c ∈ text) :
      ¬(0xD800 ≤ c ∧ c < 0xE000) := by
    have small := plain c member
    omega
  rw [isSome_encodeUtf8_iff]
  constructor
  · rintro free c member surrogate
    have there : c ∈ escape source := (mem_escape surrogate.1).mpr member
    exact free c (by simp [link, there]) surrogate
  · intro free c member surrogate
    simp only [link, List.mem_append] at member
    rcases member with ((((first | skipped) | second) | listed) | third) | last
    · exact literal (by simp [Text.ofString]) first surrogate
    · exact literal digits ((mem_escape surrogate.1).mp skipped) surrogate
    · exact literal (by simp [Text.ofString]) second surrogate
    · exact free c ((mem_escape surrogate.1).mp listed) surrogate
    · exact literal (by simp [Text.ofString]) third surrogate
    · exact literal word ((mem_escape surrogate.1).mp last) surrogate

theorem map_shownChar (shown : 0 ∉ text) : text.map shownChar = text := by
  conv_rhs => rw [← List.map_id text]
  refine List.map_congr_left fun c member => if_neg ?_
  rintro rfl
  exact shown member

theorem mem_of_mem_map_shownChar {c : Nat} (other : c ≠ 0xFFFD) (shown : c ∈ text.map shownChar) : c ∈ text := by
  obtain ⟨hidden, listed, same⟩ := List.mem_map.mp shown
  unfold shownChar at same
  split_ifs at same
  · exact absurd same.symm other
  · rwa [← same]

theorem attributeValue_link (digits : ∀ c ∈ skip, 48 ≤ c) :
    attributeValue (link skip source processed ++ [34]) =
      Text.ofString "/partials/records" ++ 63 :: (Text.ofString "skip=" ++ skip ++ Text.ofString "&source=" ++
        (source.map shownChar ++ (Text.ofString "&processed=" ++ processed.map shownChar))) := by
  have positive : 0 ∉ skip := fun member => absurd (digits 0 member) (by simp)
  have first (rest : Text) : unescape (Text.ofString "/partials/records?skip=" ++ rest) =
      Text.ofString "/partials/records?skip=" ++ unescape rest := by
    rw [unescape_append_of_not_mem (by simp [Text.ofString]), map_shownChar (by simp [Text.ofString])]
  -- The names of these two parameters begin no reference.
  have second (rest : Text) : unescape (Text.ofString "&source=" ++ rest) =
      Text.ofString "&source=" ++ unescape rest := rfl
  have third (rest : Text) : unescape (Text.ofString "&processed=" ++ rest) =
      Text.ofString "&processed=" ++ unescape rest := rfl
  have unquoted : 34 ∉ link skip source processed := by
    have references := not_mem_escape
    simp only [link, List.mem_append, references, or_false]
    simp [Text.ofString]
  have last : unescape (escape processed) = processed.map shownChar := by
    simpa [unescape] using unescape_escape processed []
  rw [attributeValue_of_not_mem unquoted, link]
  simp only [List.append_assoc, first, second, third, unescape_escape, last, map_shownChar positive]
  simp [Text.ofString]

/-! ## What is sent -/

def before (skip : Text) : Text := Text.ofString "skip=" ++ skip ++ Text.ofString "&source="

def after (processed : Text) : Text := Text.ofString "&processed=" ++ processed.map shownChar

theorem before_solid (digits : ∀ c ∈ skip, isDigit c = true) : ∀ c ∈ before skip, 32 < c ∧ c ≠ 35 := by
  intro c member
  simp only [before, List.mem_append] at member
  have name : ∀ c ∈ Text.ofString "skip=", 32 < c ∧ c ≠ 35 := by simp [Text.ofString]
  have next : ∀ c ∈ Text.ofString "&source=", 32 < c ∧ c ≠ 35 := by simp [Text.ofString]
  rcases member with (first | digit) | second
  · exact name c first
  · have range := isDigit_iff.mp (digits c digit)
    omega
  · exact next c second

theorem after_solid (word : ∀ c ∈ processed, 32 < c ∧ c ≠ 35) : ∀ c ∈ after processed, 32 < c ∧ c ≠ 35 := by
  intro c member
  have name : ∀ c ∈ Text.ofString "&processed=", 32 < c ∧ c ≠ 35 := by simp [Text.ofString]
  rcases List.mem_append.mp member with first | shown
  · exact name c first
  · obtain ⟨other, listed, rfl⟩ := List.mem_map.mp shown
    have bounds := word other listed
    rwa [shownChar, if_neg (by omega)]

theorem records_solid : ∀ c ∈ Text.ofString "/partials/records", 32 < c ∧ c ≠ 35 ∧ c ≠ 63 := by
  simp [Text.ofString]

theorem sentQuery_eq (digits : ∀ c ∈ skip, isDigit c = true) :
    sentQuery (link skip source processed) = percentEncode (before skip ++
      (((source.map shownChar ++ after processed).takeWhile (· ≠ 35)).rdropWhile (· ≤ 32)).filter (!isNewline ·)) := by
  have shape : attributeValue (link skip source processed ++ [34]) =
      (Text.ofString "/partials/records" ++ 63 :: before skip) ++ (source.map shownChar ++ after processed) := by
    rw [attributeValue_link fun c member => (isDigit_iff.mp (digits c member)).1]
    simp [before, after]
  have front : ∀ c ∈ Text.ofString "/partials/records" ++ 63 :: before skip, decide (c ≠ 35) = true := by
    intro c member
    apply decide_eq_true
    rcases List.mem_append.mp member with path | query
    · exact (records_solid c path).2.1
    · rcases List.mem_cons.mp query with rfl | listed
      · simp
      · exact (before_solid digits c listed).2
  have unfragmented : 35 ∉ (source.map shownChar ++ after processed).takeWhile (· ≠ 35) :=
    not_mem_takeWhile _ _
  rw [sentQuery, shape, pathNoAnchor, List.takeWhile_append_of_pos front, List.append_assoc, List.cons_append]
  exact requestQuery_eq (by simp [Text.ofString]) records_solid (before_solid digits) unfragmented

/-- Without a number sign only the tabs and newlines of a source are not sent. -/
theorem sentQuery_whole (digits : ∀ c ∈ skip, isDigit c = true) (word : ∀ c ∈ processed, 32 < c ∧ c ≠ 35)
    (unfragmented : 35 ∉ source.map shownChar) :
    sentQuery (link skip source processed) =
      percentEncode (before skip ++ ((source.map shownChar).filter (!isNewline ·) ++ after processed)) := by
  have solid := after_solid word
  have whole : (source.map shownChar ++ after processed).takeWhile (· ≠ 35) =
      source.map shownChar ++ after processed := by
    rw [List.takeWhile_eq_self_iff]
    intro c member
    apply decide_eq_true
    rcases List.mem_append.mp member with early | late
    · exact fun same => unfragmented (same ▸ early)
    · exact (solid c late).2
  have untrimmed : (source.map shownChar ++ after processed).rdropWhile (· ≤ 32) =
      source.map shownChar ++ after processed := by
    rw [List.rdropWhile_eq_self_iff]
    intro nonempty
    have there : after processed ≠ [] := by simp [after, Text.ofString]
    rw [List.getLast_append_of_right_ne_nil _ _ there, decide_eq_true_eq, Nat.not_le]
    exact (solid _ (List.getLast_mem there)).1
  have kept : (after processed).filter (!isNewline ·) = after processed :=
    filter_newlines_of_solid fun c member => (solid c member).1
  rw [sentQuery_eq digits, whole, untrimmed, List.filter_append, kept]

/-- A number sign and what comes after it are not sent, nor the processed parameter. -/
theorem sentQuery_cut (digits : ∀ c ∈ skip, isDigit c = true) (fragment : 35 ∈ source.map shownChar) :
    ∃ text, text.Sublist (source.map shownChar) ∧ (∀ c ∈ text, c ≠ 35 ∧ isNewline c = false) ∧
      sentQuery (link skip source processed) = percentEncode (before skip ++ text) := by
  have cut : (source.map shownChar ++ after processed).takeWhile (· ≠ 35) =
      (source.map shownChar).takeWhile (· ≠ 35) := by
    rw [List.takeWhile_append, if_neg]
    intro all
    have whole := (List.takeWhile_prefix _).eq_of_length all
    rw [List.takeWhile_eq_self_iff] at whole
    exact of_decide_eq_true (whole 35 fragment) rfl
  have sub : ((((source.map shownChar).takeWhile (· ≠ 35)).rdropWhile (· ≤ 32)).filter (!isNewline ·)).Sublist
      ((source.map shownChar).takeWhile (· ≠ 35)) :=
    List.filter_sublist.trans (List.rdropWhile_prefix _ _).sublist
  refine ⟨_, sub.trans (List.takeWhile_sublist _), ?_, by rw [sentQuery_eq digits, cut]⟩
  intro c member
  refine ⟨?_, by simpa using (List.mem_filter.mp member).2⟩
  rintro rfl
  exact not_mem_takeWhile _ _ (sub.subset member)

theorem exists_sent (digits : ∀ c ∈ skip, isDigit c = true) (word : ∀ c ∈ processed, 32 < c ∧ c ≠ 35) :
    ∃ text rest, sentQuery (link skip source processed) = percentEncode (before skip ++ (text ++ rest)) ∧
      (rest = [] ∨ rest = after processed) ∧ text.Sublist (source.map shownChar) ∧
      (∀ c ∈ text, c ≠ 35 ∧ isNewline c = false) ∧
      (text = source.map shownChar ∨ asciiCount text < asciiCount (source.map shownChar)) := by
  by_cases fragment : 35 ∈ source.map shownChar
  · obtain ⟨text, sub, carried, query⟩ := @sentQuery_cut skip source processed digits fragment
    have lost : 35 ∉ text := fun member => (carried 35 member).1 rfl
    refine ⟨text, [], ?_, .inl rfl, sub, carried, .inr (asciiCount_lt_of_lost sub (by simp) fragment lost)⟩
    rw [query, List.append_nil]
  · refine ⟨_, _, sentQuery_whole digits word fragment, .inr rfl, List.filter_sublist, ?_, ?_⟩
    · intro c member
      obtain ⟨there, other⟩ := List.mem_filter.mp member
      exact ⟨fun same => fragment (same ▸ there), by simpa using other⟩
    by_cases newline : ∃ c ∈ source.map shownChar, isNewline c = true
    · obtain ⟨c, there, newline⟩ := newline
      have ascii : c < 0x80 := by
        simp only [isNewline, Bool.or_eq_true, beq_iff_eq] at newline
        omega
      exact .inr (asciiCount_lt_of_lost List.filter_sublist ascii there (by simp [newline]))
    · left
      rw [List.filter_eq_self]
      intro c there
      simpa using fun isOne => newline ⟨c, there, isOne⟩

/-! ## What is received -/

theorem received_source {rest value : Text} (digits : ∀ c ∈ skip, isDigit c = true) (single : 38 ∉ processed)
    (codes : ∀ c ∈ text, c < 0x110000) (tail : rest = [] ∨ rest = after processed)
    (found : lastValue (parseQsl (percentEncode (before skip ++ (text ++ rest)))) (Text.ofString "source") =
      some value) :
    38 ∉ text ∧ value = received text ∨ asciiCount value < asciiCount text := by
  obtain ⟨piece, listed, named, rfl⟩ := exists_piece_of_lastValue found
  have shape : before skip ++ (text ++ rest) =
      (Text.ofString "skip=" ++ skip) ++ 38 :: ((Text.ofString "source" ++ 61 :: text) ++ rest) := by
    simp [before, Text.ofString]
  have whole : 38 ∉ Text.ofString "skip=" ++ skip := by
    intro member
    rcases List.mem_append.mp member with first | digit
    · exact absurd first (by simp [Text.ofString])
    · exact absurd (digits 38 digit) (by decide)
  -- The other parameters have other names.
  have otherName {name value : Text} (plain : ∀ c ∈ name, c < 0x80 ∧ c ≠ 37 ∧ c ≠ 43) (unassigned : 61 ∉ name)
      (other : name ≠ Text.ofString "source") (same : piece = name ++ 61 :: value) : False := by
    rw [same, partition_append_of_not_mem unassigned, partition_cons_self, List.append_nil,
      received_ascii plain] at named
    exact other named
  rw [shape, List.splitOn_append_cons_self_of_not_mem whole] at listed
  rcases List.mem_cons.mp listed with first | later
  · have name : piece = Text.ofString "skip" ++ 61 :: skip := first
    exact (otherName (by simp [Text.ofString]) (by simp [Text.ofString]) (by simp [Text.ofString]) name).elim
  · have value (own : piece ∈ (Text.ofString "source" ++ 61 :: text).splitOn 38) :=
      received_value codes (by simp [Text.ofString]) (by simp [Text.ofString]) own
    rcases tail with rfl | rfl
    · rw [List.append_nil] at later
      exact value later
    · have last : after processed = 38 :: (Text.ofString "processed=" ++ processed.map shownChar) := rfl
      have uncut : 38 ∉ Text.ofString "processed=" ++ processed.map shownChar := by
        intro member
        rcases List.mem_append.mp member with first | shown
        · exact absurd first (by simp [Text.ofString])
        · exact single (mem_of_mem_map_shownChar (by simp) shown)
      rw [last, List.splitOn_append_cons_self, List.splitOn_eq_singleton uncut] at later
      rcases List.mem_append.mp later with own | other
      · exact value own
      · have name : piece = Text.ofString "processed" ++ 61 :: processed.map shownChar := List.mem_singleton.mp other
        exact (otherName (by simp [Text.ofString]) (by simp [Text.ofString]) (by simp [Text.ofString]) name).elim

theorem asciiCount_map_shownChar (text : Text) :
    asciiCount (text.map shownChar) + text.count 0 = asciiCount text := by
  induction text with
  | nil => rfl
  | cons c text ih =>
    rw [List.map_cons, asciiCount_cons (shownChar c), asciiCount_cons c text, List.count_cons, ← ih]
    by_cases null : c = 0
    · subst null
      simp [shownChar, asciiCount]
      omega
    · simp [shownChar, null]
      omega

theorem plain_of_received {value : Text} (bounded : ∀ c ∈ source, c < 0x110000)
    (encodable : ∀ c ∈ source, ¬(0xD800 ≤ c ∧ c < 0xE000)) (carried : ∀ c ∈ text, c ≠ 35 ∧ isNewline c = false)
    (kept : text = source.map shownChar ∨ asciiCount text < asciiCount (source.map shownChar))
    (codes : ∀ c ∈ text, c < 0x110000)
    (read : 38 ∉ text ∧ value = received text ∨ asciiCount value < asciiCount text)
    (same : value = source) : Plain source := by
  subst same
  have shown := asciiCount_map_shownChar value
  have fewer : asciiCount text ≤ asciiCount (value.map shownChar) := by
    rcases kept with whole | less
    · rw [whole]
    · exact le_of_lt less
  -- The counts on the way from the source to the value are all the same.
  obtain ⟨unseparated, received_⟩ : 38 ∉ text ∧ value = received text := read.resolve_right (by omega)
  have counts := asciiCount_received codes
  rw [← received_] at counts
  have whole : text = value.map shownChar := kept.resolve_right (by omega)
  have unescaped : hasEscape text = false := by
    rw [Bool.eq_false_iff]
    intro escape
    have less := counts.2 escape
    omega
  have noNull : 0 ∉ value := by
    rw [← List.count_eq_zero]
    have less := counts.1
    omega
  rw [map_shownChar noNull] at whole
  rw [whole] at codes carried unseparated received_ unescaped
  rw [received_of_no_escape codes ((isSome_encodeUtf8_iff _).mpr encodable) unescaped] at received_
  have noPlus : 43 ∉ value := by
    intro member
    have fixed : value.map id = value.map plusToSpace := (List.map_id value).trans received_
    exact absurd (List.map_inj_left.mp fixed 43 member) (by decide)
  refine ⟨encodable, ?_, unescaped⟩
  intro c member syntactic
  have sent := carried c member
  simp only [isNewline, Bool.or_eq_false_iff, beq_eq_false_iff_ne] at sent
  simp only [List.mem_cons, List.not_mem_nil, or_false] at syntactic
  rcases syntactic with rfl | rfl | rfl | rfl | rfl | rfl | rfl
  · exact noNull member
  · exact sent.2.1.1 rfl
  · exact sent.2.1.2 rfl
  · exact sent.2.2 rfl
  · exact sent.1 rfl
  · exact unseparated member
  · exact noPlus member

/-! ## A plain source -/

theorem sentQuery_plain (digits : ∀ c ∈ skip, isDigit c = true) (word : ∀ c ∈ processed, 32 < c ∧ c ≠ 35)
    (plain : Plain source) :
    sentQuery (link skip source processed) = percentEncode (before skip ++ (source ++ after processed)) := by
  have other {c : Nat} (listed : c ∈ [0, 9, 10, 13, 35, 38, 43]) : c ∉ source := fun member =>
    plain.noSyntax c member listed
  have whole : source.map shownChar = source := map_shownChar (other (by simp))
  have kept : source.filter (!isNewline ·) = source := by
    rw [List.filter_eq_self]
    intro c member
    have characters := plain.noSyntax c member
    simp only [List.mem_cons, List.not_mem_nil, or_false] at characters
    simp only [isNewline, Bool.not_eq_true', Bool.or_eq_false_iff, beq_eq_false_iff_ne]
    omega
  rw [sentQuery_whole digits word, whole, kept]
  rw [whole]
  exact other (by simp)

theorem received_plain (bounded : ∀ c ∈ source, c < 0x110000) (plain : Plain source) : received source = source := by
  have noPlus : 43 ∉ source := fun member => plain.noSyntax 43 member (by simp)
  rw [received_of_no_escape bounded ((isSome_encodeUtf8_iff _).mpr plain.noSurrogate) plain.noEscape,
    map_plusToSpace_of_not_mem noPlus]

theorem parseQsl_plain (digits : ∀ c ∈ skip, isDigit c = true) (bounded : ∀ c ∈ source, c < 0x110000)
    (plain : Plain source) (processed : Bool) :
    parseQsl (sentQuery (link skip source (processedText processed))) =
      [(Text.ofString "skip", skip), (Text.ofString "source", source),
        (Text.ofString "processed", processedText processed)] := by
  have word := processedText_plain processed
  have solid := processedText_solid processed
  have unshown : (processedText processed).map shownChar = processedText processed :=
    map_shownChar fun member => absurd (word 0 member).1 (by simp)
  have shape : before skip ++ (source ++ after (processedText processed)) =
      (Text.ofString "skip" ++ 61 :: skip) ++ 38 :: ((Text.ofString "source" ++ 61 :: source) ++
        38 :: (Text.ofString "processed" ++ 61 :: processedText processed)) := by
    rw [after, unshown]
    simp [before, Text.ofString]
  have uncut {name value : Text} (first : 38 ∉ name) (second : 38 ∉ value) : 38 ∉ name ++ 61 :: value := by
    simp [first, second]
  have uncutSkip : 38 ∉ Text.ofString "skip" ++ 61 :: skip :=
    uncut (by simp [Text.ofString]) fun member => absurd (digits 38 member) (by decide)
  have uncutSource : 38 ∉ Text.ofString "source" ++ 61 :: source :=
    uncut (by simp [Text.ofString]) fun member => plain.noSyntax 38 member (by simp)
  have uncutProcessed : 38 ∉ Text.ofString "processed" ++ 61 :: processedText processed :=
    uncut (by simp [Text.ofString]) fun member => (word 38 member).2.2 (by simp)
  have number : received skip = skip := by
    apply received_ascii
    intro c member
    have range := isDigit_iff.mp (digits c member)
    omega
  have boolean : received (processedText processed) = processedText processed := by
    apply received_ascii
    intro c member
    have others := (word c member).2
    exact ⟨others.1, fun same => others.2 (by simp [same]), fun same => others.2 (by simp [same])⟩
  rw [sentQuery_plain digits solid plain, parseQsl_percentEncode, shape,
    List.splitOn_append_cons_self_of_not_mem uncutSkip, List.splitOn_append_cons_self_of_not_mem uncutSource,
    List.splitOn_eq_singleton uncutProcessed, List.filter_eq_self.mpr (by simp)]
  rw [List.map_cons, List.map_cons, List.map_cons, List.map_nil,
    received_field (by simp [Text.ofString]) (by simp [Text.ofString]) number,
    received_field (by simp [Text.ofString]) (by simp [Text.ofString]) (received_plain bounded plain),
    received_field (by simp [Text.ofString]) (by simp [Text.ofString]) boolean]

/-! ## The round trip -/

theorem hxGet_eq_some (source : Option Text) (processed : Bool) (address : Text) :
    hxGet nextSkip source processed = some address ↔
      (decimal nextSkip).length ≤ 4300 ∧ (∀ c ∈ source.getD [], ¬(0xD800 ≤ c ∧ c < 0xE000)) ∧
        link (decimal nextSkip) (source.getD []) (processedText processed) = address := by
  have digits : IsAscii (decimal nextSkip) := by
    intro c member
    have range := isDigit_iff.mp (isDigit_of_mem_decimal member)
    omega
  have word : IsAscii (processedText processed) := fun c member => (processedText_plain processed c member).2.1
  rw [← isSome_encodeUtf8_link digits word, hxGet, str]
  by_cases short : (decimal nextSkip).length ≤ 4300
  · simp [short]
  · simp [short]

theorem bool_nil (documented : pydantic.Documented) : pydantic.bool [] = none := by
  cases read : pydantic.bool [] with
  | none => rfl
  | some value =>
    cases value with
    | true => exact absurd ((documented.trueWord []).mp read) (by simp [trueWords, Text.ofString])
    | false => exact absurd ((documented.falseWord []).mp read) (by simp [falseWords, Text.ofString])

theorem bool_true (documented : pydantic.Documented) : pydantic.bool (Text.ofString "True") = some true :=
  (documented.trueWord _).mpr (by simp [trueWords, asciiLower, Text.ofString])

theorem recordsPartial_plain (documented : pydantic.Documented) (short : (decimal nextSkip).length ≤ 4300)
    (bounded : ∀ c ∈ source, c < 0x110000) (plain : Plain source) (processed : Bool) :
    recordsPartial pydantic (sentQuery (link (decimal nextSkip) source (processedText processed))) =
      if processed then some ⟨nextSkip, some source, true⟩ else none := by
  have digits := decimal_digits nextSkip
  rw [recordsPartial, parseQsl_plain digits bounded plain processed]
  have number : lastValue [(Text.ofString "skip", decimal nextSkip), (Text.ofString "source", source),
      (Text.ofString "processed", processedText processed)] (Text.ofString "skip") = some (decimal nextSkip) := rfl
  have filter : lastValue [(Text.ofString "skip", decimal nextSkip), (Text.ofString "source", source),
      (Text.ofString "processed", processedText processed)] (Text.ofString "processed") =
        some (processedText processed) := rfl
  have named : lastValue [(Text.ofString "skip", decimal nextSkip), (Text.ofString "source", source),
      (Text.ofString "processed", processedText processed)] (Text.ofString "source") = some source := rfl
  simp only [number, filter, named, parameter, documented.int nextSkip short]
  cases processed with
  | true => simp [processedText, bool_true documented, Option.filter]
  | false => simp [processedText, bool_nil documented]

theorem source_of_recordsPartial {query : Text} {request : Request}
    (read : recordsPartial pydantic query = some request) :
    request.source = lastValue (parseQsl query) (Text.ofString "source") := by
  simp only [recordsPartial, Option.bind_eq_bind, Option.bind_eq_some_iff, Option.pure_def, Option.some.injEq] at read
  obtain ⟨_, _, _, _, rfl⟩ := read
  rfl

theorem bounded_codes (source : Option PyString) : ∀ c ∈ (source.map PyString.codes).getD [], c < 0x110000 := by
  cases source with
  | none => simp
  | some source => exact source.bounded

theorem plain_nil : Plain [] := ⟨by simp, by simp, rfl⟩

/-- The source comes back only if it is plain. -/
theorem plain_of_recordsPartial {request : Request} (bounded : ∀ c ∈ source, c < 0x110000)
    (encodable : ∀ c ∈ source, ¬(0xD800 ≤ c ∧ c < 0xE000)) (processed : Bool)
    (read : recordsPartial pydantic (sentQuery (link (decimal nextSkip) source (processedText processed))) =
      some request) (same : request.source.getD [] = source) : Plain source := by
  have digits := decimal_digits nextSkip
  have word := processedText_plain processed
  have solid := processedText_solid processed
  have single : 38 ∉ processedText processed := fun member => (word 38 member).2.2 (by simp)
  obtain ⟨text, rest, query, tail, sub, carried, kept⟩ := @exists_sent _ source _ digits solid
  have codes : ∀ c ∈ text, c < 0x110000 := by
    intro c member
    obtain ⟨shown, listed, rfl⟩ := List.mem_map.mp (sub.subset member)
    have bound := bounded shown listed
    unfold shownChar
    split <;> omega
  have found := source_of_recordsPartial read
  cases value : request.source with
  | none =>
    rw [value] at same
    rw [← same]
    exact plain_nil
  | some value_ =>
    rw [value, query] at found
    rw [value] at same
    exact plain_of_received bounded encodable carried kept codes
      (received_source digits single codes tail found.symm) same

/-- The link asks for the next page exactly if the page is filtered by records that are
processed and the source has nothing in it that a URL takes for something else. -/
theorem roundTrips_iff (documented : pydantic.Documented) (nextSkip : Nat) (source : Option PyString)
    (processed : Bool) :
    RoundTrips pydantic nextSkip source processed ↔
      processed = true ∧ (decimal nextSkip).length ≤ 4300 ∧ Plain ((source.map PyString.codes).getD []) := by
  have bounded := bounded_codes source
  constructor
  · rintro ⟨address, request, rendered, read, _, filter, same⟩
    obtain ⟨short, encodable, rfl⟩ := (hxGet_eq_some _ _ _).mp rendered
    have plain := plain_of_recordsPartial bounded encodable processed read same
    rw [recordsPartial_plain documented short bounded plain] at read
    cases processed with
    | true => exact ⟨rfl, short, plain⟩
    | false => cases read
  · rintro ⟨rfl, short, plain⟩
    exact ⟨_, _, (hxGet_eq_some _ _ _).mpr ⟨short, plain.noSurrogate, rfl⟩,
      recordsPartial_plain documented short bounded plain true, rfl, rfl, rfl⟩

def lax : Pydantic where
  int text := if text.length ≤ 4300 && !text.isEmpty && text.all isDigit then some (digitsValue text) else none
  bool text :=
    if trueWords.contains (text.map asciiLower) then some true
    else if falseWords.contains (text.map asciiLower) then some false else none

theorem lax_documented : lax.Documented where
  int n short := by
    have digits : (decimal n).all isDigit = true := List.all_eq_true.mpr fun c member => isDigit_of_mem_decimal member
    show (if _ then _ else _) = _
    rw [if_pos (by simp [short, digits, decimal_ne_nil]), digitsValue_decimal]
  trueWord text := by
    by_cases word : text.map asciiLower ∈ trueWords <;> simp [lax, word]
  falseWord text := by
    have exclusive : ∀ word ∈ trueWords, word ∉ falseWords := by
      simp [trueWords, falseWords, Text.ofString]
    by_cases word : text.map asciiLower ∈ trueWords
    · simp [lax, word, exclusive _ word]
    · simp [lax, word]

def sensor : PyString := ⟨Text.ofString "sensor-a", by simp [Text.ofString]⟩

theorem sensor_roundTrips : RoundTrips lax 50 (some sensor) true :=
  (roundTrips_iff lax_documented 50 (some sensor) true).mpr
    ⟨rfl, by decide, by simp [sensor, Text.ofString], by simp [sensor, Text.ofString],
      by simp [sensor, Text.ofString, hasEscape]⟩

/-- Without filters the explorer does not get beyond its first page. -/
theorem unfiltered_rejected :
    hxGet 50 none false = some (Text.ofString "/partials/records?skip=50&source=&processed=") ∧
      recordsPartial lax (sentQuery (Text.ofString "/partials/records?skip=50&source=&processed=")) = none ∧
        ¬RoundTrips lax 50 none false := by
  have rendered : hxGet 50 none false = some (Text.ofString "/partials/records?skip=50&source=&processed=") := by
    decide +kernel
  have rejected :
      recordsPartial lax (sentQuery (Text.ofString "/partials/records?skip=50&source=&processed=")) = none := by
    decide +kernel
  refine ⟨rendered, rejected, ?_⟩
  rintro ⟨address, request, emitted, read, _⟩
  obtain rfl := Option.some.inj (rendered.symm.trans emitted)
  exact absurd (rejected.symm.trans read) (by simp)

end DataPipeline.Dashboard.Continuation
