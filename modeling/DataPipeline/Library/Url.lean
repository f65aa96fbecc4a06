import Mathlib.Data.List.DropRight
import DataPipeline.Library.Json
import DataPipeline.Library.Utf8

/-! The query of a URL, as a browser escapes it and as a server reads it.

Text that was put into a URL without escaping it first is escaped by the browser
where it must be and is otherwise taken for the syntax of the query.
-/

set_option autoImplicit false

namespace Url

open Encoding Json

/-! ## What a browser sends -/

def hexChar (digit : Nat) : Nat := if digit < 10 then 48 + digit else 55 + digit

def escapeByte (byte : UInt8) : Text := [37, hexChar (byte.toNat / 16), hexChar (byte.toNat % 16)]

/-- The bytes of a character. U+FFFD stands for a lone surrogate. -/
def codeBytes (c : Nat) : Bytes := (encodeUtf8Code c).getD [0xEF, 0xBF, 0xBD]

def escapeCode (c : Nat) : Text := (codeBytes c).flatMap escapeByte

/-- The characters that are escaped in the query of an HTTP URL. -/
def inQuerySet (c : Nat) : Bool :=
  c ≤ 32 || c == 34 || c == 35 || c == 39 || c == 60 || c == 62 || 127 ≤ c

def percentEncode (text : Text) : Text :=
  text.flatMap fun c => if inQuerySet c then escapeCode c else [c]

def isNewline (c : Nat) : Bool := c == 9 || c == 10 || c == 13

/-- What is left of an address when a URL parser has removed the blanks around
it and the tabs and newlines in it. -/
def cleaned (url : Text) : Text :=
  ((url.dropWhile (· ≤ 32)).rdropWhile (· ≤ 32)).filter (!isNewline ·)

/-- The query of an address, without the fragment, in the form in which it goes
to the server. -/
def requestQuery (url : Text) : Text :=
  percentEncode ((((cleaned url).takeWhile (· ≠ 35)).dropWhile (· ≠ 63)).drop 1)

/-! ## What a server reads -/

def hexByte (high low : Nat) : Option UInt8 := do
  return (16 * (← hexDigit high) + (← hexDigit low)).toUInt8

/-- `unquote_to_bytes`, of ASCII text. A percent sign that no two digits follow
stands for itself. -/
def unquoteToBytes : Text → Bytes
  | 37 :: high :: low :: text =>
    match hexByte high low with
    | some byte => byte :: unquoteToBytes text
    | none => 37 :: unquoteToBytes (high :: low :: text)
  | c :: text => c.toUInt8 :: unquoteToBytes text
  | [] => []

def plusToSpace (c : Nat) : Nat := if c = 43 then 32 else c

def unquotePlus (text : Text) : Text := decodeUtf8Replacing (unquoteToBytes (text.map plusToSpace))

/-- `str.partition`, without the separator. -/
def partition (separator : Nat) (text : Text) : Text × Text :=
  (text.takeWhile (· ≠ separator), (text.dropWhile (· ≠ separator)).drop 1)

/-- `parse_qsl` with `keep_blank_values`. -/
def parseQsl (query : Text) : List (Text × Text) :=
  ((query.splitOn 38).filter (· ≠ [])).map fun piece =>
    (unquotePlus (partition 61 piece).1, unquotePlus (partition 61 piece).2)

/-- A dictionary made of the items keeps the last value of a key. -/
def lastValue (items : List (Text × Text)) (key : Text) : Option Text := items.reverse.lookup key

/-! ## Escapes in text that was not escaped -/

/-- The byte that two digits at the head of a text spell. -/
def hexAhead : Text → Option UInt8
  | high :: low :: _ => hexByte high low
  | _ => none

/-- Somewhere a percent sign and two digits follow each other. -/
def hasEscape : Text → Bool
  | c :: text => c == 37 && (hexAhead text).isSome || hasEscape text
  | [] => false

/-- The bytes a server reads off a text of which a browser escaped only what it
must. -/
def sent : Text → Bytes
  | 37 :: high :: low :: text =>
    match hexByte high low with
    | some byte => byte :: sent text
    | none => 37 :: sent (high :: low :: text)
  | c :: text => codeBytes c ++ sent text
  | [] => []

/-- What a server makes of a text that a browser sends. -/
def received (text : Text) : Text := decodeUtf8Replacing (sent (text.map plusToSpace))

variable {text rest : Text} {c high low : Nat} {byte : UInt8}

theorem hexDigit_hexChar {digit : Nat} (small : digit < 16) : hexDigit (hexChar digit) = some digit := by
  unfold hexChar
  split
  next decimal =>
    rw [hexDigit, if_pos (by omega), Nat.add_sub_cancel_left]
  next letter =>
    rw [hexDigit, if_neg (by omega), if_neg (by omega), if_pos (by omega), Nat.add_sub_cancel_left]

theorem hexDigit_lt {value : Nat} (read : hexDigit c = some value) : c < 0x80 := by
  unfold hexDigit at read
  split_ifs at read <;> omega

theorem hexDigit_percent : hexDigit 37 = none := rfl

theorem hexByte_eq_some :
    hexByte high low = some byte ↔
      ∃ first second, hexDigit high = some first ∧ hexDigit low = some second ∧
        (16 * first + second).toUInt8 = byte := by
  simp [hexByte, Option.bind_eq_some_iff]

theorem hexByte_of_high (other : hexDigit high = none) : hexByte high low = none := by
  simp [hexByte, other]

theorem hexByte_of_low (other : hexDigit low = none) : hexByte high low = none := by
  simp [hexByte, other]

theorem hexByte_escape (byte : UInt8) :
    hexByte (hexChar (byte.toNat / 16)) (hexChar (byte.toNat % 16)) = some byte := by
  have bound := byte.toNat_lt
  refine hexByte_eq_some.mpr ⟨_, _, hexDigit_hexChar (by omega), hexDigit_hexChar (by omega), ?_⟩
  rw [Nat.div_add_mod]
  exact UInt8.ofNat_toNat

/-! ## Reading what was escaped -/

theorem unquoteToBytes_plain (plain : c ≠ 37) : unquoteToBytes (c :: text) = c.toUInt8 :: unquoteToBytes text := by
  rw [unquoteToBytes]
  intro high low rest same
  exact absurd same plain

theorem unquoteToBytes_pair (pair : hexByte high low = some byte) :
    unquoteToBytes (37 :: high :: low :: text) = byte :: unquoteToBytes text := by
  rw [unquoteToBytes, pair]

theorem unquoteToBytes_percent (alone : hexAhead text = none) :
    unquoteToBytes (37 :: text) = 37 :: unquoteToBytes text := by
  match text, alone with
  | [], _ => rfl
  | [_], _ => rfl
  | high :: low :: text, alone => rw [unquoteToBytes, show hexByte high low = none from alone]

theorem unquoteToBytes_escape (bytes : Bytes) (text : Text) :
    unquoteToBytes (bytes.flatMap escapeByte ++ text) = bytes ++ unquoteToBytes text := by
  induction bytes with
  | nil => rfl
  | cons byte bytes ih =>
    rw [List.flatMap_cons, List.append_assoc, List.cons_append, ← ih]
    exact unquoteToBytes_pair (hexByte_escape byte)

theorem sent_plain (plain : c ≠ 37) : sent (c :: text) = codeBytes c ++ sent text := by
  rw [sent]
  intro high low rest same
  exact absurd same plain

theorem sent_pair (pair : hexByte high low = some byte) : sent (37 :: high :: low :: text) = byte :: sent text := by
  rw [sent, pair]

theorem sent_percent (alone : hexAhead text = none) : sent (37 :: text) = 37 :: sent text := by
  match text, alone with
  | [], _ => rfl
  | [_], _ => rfl
  | high :: low :: text, alone => rw [sent, show hexByte high low = none from alone]

theorem codeBytes_ascii (ascii : c < 0x80) : codeBytes c = [c.toUInt8] := by
  rw [codeBytes, encodeUtf8Code, if_pos ascii, Option.getD_some]

theorem escapeCode_append (c : Nat) (text : Text) :
    unquoteToBytes (escapeCode c ++ text) = codeBytes c ++ unquoteToBytes text := unquoteToBytes_escape _ _

theorem escapeCode_eq_cons (c : Nat) : ∃ tail, escapeCode c = 37 :: tail := by
  cases bytes : codeBytes c with
  | nil =>
    exfalso
    unfold codeBytes encodeUtf8Code at bytes
    split_ifs at bytes <;> cases bytes
  | cons byte others => exact ⟨_, by rw [escapeCode, bytes]; rfl⟩

/-- A text of which the marked characters are escaped. -/
def written (marked : List (Nat × Bool)) : Text :=
  marked.flatMap fun mark => if mark.2 then escapeCode mark.1 else [mark.1]

/-- All but ASCII is escaped, and neither a percent sign nor a digit is. -/
def Escapable (mark : Nat × Bool) : Prop :=
  if mark.2 then mark.1 ≠ 37 ∧ hexDigit mark.1 = none else mark.1 < 0x80

theorem Escapable.plain {escaped : Bool} {value : Nat} (proper : Escapable (c, escaped))
    (digit : hexDigit c = some value) : escaped = false := by
  cases escaped with
  | false => rfl
  | true => exact absurd (proper.2.symm.trans digit) (by simp)

theorem hexAhead_percent (text : Text) : hexAhead (37 :: text) = none := by
  cases text with
  | nil => rfl
  | cons low text => exact hexByte_of_high hexDigit_percent

/-- No escape comes into being when other characters are escaped. -/
theorem hexAhead_written {marked : List (Nat × Bool)} (proper : ∀ mark ∈ marked, Escapable mark) :
    hexAhead (written marked) = hexAhead (marked.map Prod.fst) := by
  match marked, proper with
  | [], _ => rfl
  | [(high, false)], _ => rfl
  | (high, true) :: marked, proper =>
    obtain ⟨tail, start⟩ := escapeCode_eq_cons high
    have other : hexDigit high = none := (proper _ List.mem_cons_self).2
    rw [written, List.flatMap_cons, if_pos rfl, start, List.cons_append, hexAhead_percent]
    cases marked with
    | nil => rfl
    | cons mark marked => exact (hexByte_of_high other).symm
  | (high, false) :: (low, false) :: marked, _ => rfl
  | (high, false) :: (low, true) :: marked, proper =>
    obtain ⟨tail, start⟩ := escapeCode_eq_cons low
    have other : hexDigit low = none := (proper (low, true) (by simp)).2
    rw [written, List.flatMap_cons, List.flatMap_cons, if_pos rfl, start]
    exact (hexByte_of_low hexDigit_percent).trans (hexByte_of_low other).symm

theorem unquoteToBytes_written (marked : List (Nat × Bool)) (proper : ∀ mark ∈ marked, Escapable mark) :
    unquoteToBytes (written marked) = sent (marked.map Prod.fst) := by
  induction length : marked.length using Nat.strong_induction_on generalizing marked with
  | _ count ih =>
    cases marked with
    | nil => rfl
    | cons mark marked =>
      obtain ⟨c, escaped⟩ := mark
      obtain ⟨own, others⟩ := List.forall_mem_cons.mp proper
      have tail := ih marked.length (by simp [← length]) marked others rfl
      rw [List.map_cons]
      cases escaped with
      | true =>
        rw [sent_plain own.1, ← tail, written, List.flatMap_cons, if_pos rfl, escapeCode_append]
        rfl
      | false =>
        rw [written, List.flatMap_cons, if_neg Bool.false_ne_true, List.singleton_append]
        by_cases percent : c = 37
        · subst percent
          cases ahead : hexAhead (marked.map Prod.fst) with
          | none =>
            rw [sent_percent ahead, ← tail]
            exact unquoteToBytes_percent ((hexAhead_written others).trans ahead)
          | some byte =>
            match marked, ahead, others with
            | (high, first) :: (low, second) :: marked, ahead, others =>
              obtain ⟨_, _, digit, next, _⟩ := hexByte_eq_some.mp ahead
              obtain ⟨firstProper, later⟩ := List.forall_mem_cons.mp others
              obtain ⟨secondProper, remaining⟩ := List.forall_mem_cons.mp later
              obtain rfl := firstProper.plain digit
              obtain rfl := secondProper.plain next
              have shorter : marked.length < count := by
                rw [← length]
                simp only [List.length_cons]
                omega
              have rest := ih marked.length shorter marked remaining rfl
              rw [List.map_cons, List.map_cons, sent_pair ahead, ← rest]
              exact unquoteToBytes_pair ahead
        · rw [sent_plain percent, unquoteToBytes_plain percent, codeBytes_ascii own, ← tail]
          rfl

theorem mem_escapeCode {x : Nat} (member : x ∈ escapeCode c) : x = 37 ∨ (hexDigit x).isSome = true := by
  obtain ⟨byte, _, place⟩ := List.mem_flatMap.mp member
  have bound := byte.toNat_lt
  simp only [escapeByte, List.mem_cons, List.not_mem_nil, or_false] at place
  rcases place with rfl | rfl | rfl
  · exact .inl rfl
  · exact .inr (by rw [hexDigit_hexChar (by omega), Option.isSome_some])
  · exact .inr (by rw [hexDigit_hexChar (by omega), Option.isSome_some])

theorem not_mem_escapeCode {separator : Nat} (other : separator ≠ 37) (digit : hexDigit separator = none) (c : Nat) :
    separator ∉ escapeCode c := by
  intro member
  rcases mem_escapeCode member with same | read
  · exact other same
  · rw [digit] at read
    cases read

theorem plusToSpace_of_ne (other : c ≠ 43) : plusToSpace c = c := if_neg other

theorem map_plusToSpace_of_not_mem (absent : 43 ∉ text) : text.map plusToSpace = text := by
  conv_rhs => rw [← List.map_id text]
  exact List.map_congr_left fun _ member => plusToSpace_of_ne fun same => absent (same ▸ member)

theorem inQuerySet_other (escaped : inQuerySet c = true) : c ≠ 37 ∧ c ≠ 38 ∧ c ≠ 43 ∧ c ≠ 61 ∧ hexDigit c = none := by
  simp only [inQuerySet, Bool.or_eq_true, decide_eq_true_eq, beq_iff_eq] at escaped
  unfold hexDigit
  refine ⟨by omega, by omega, by omega, by omega, ?_⟩
  rw [if_neg (by omega), if_neg (by omega), if_neg (by omega)]

theorem map_percentEncode (text : Text) :
    (percentEncode text).map plusToSpace = written (text.map fun c => (plusToSpace c, inQuerySet c)) := by
  rw [percentEncode, written, List.map_flatMap, List.flatMap_map]
  congr 1
  funext c
  cases escaped : inQuerySet c with
  | false => rfl
  | true =>
    rw [if_pos rfl, if_pos rfl, plusToSpace_of_ne (inQuerySet_other escaped).2.2.1]
    exact map_plusToSpace_of_not_mem (not_mem_escapeCode (by simp) rfl c)

theorem isNewline_of_solid (solid : 32 < c) : isNewline c = false := by
  simp only [isNewline, Bool.or_eq_false_iff, beq_eq_false_iff_ne]
  omega

theorem filter_newlines_of_solid (solid : ∀ c ∈ text, 32 < c) : text.filter (!isNewline ·) = text := by
  rw [List.filter_eq_self]
  intro c member
  rw [isNewline_of_solid (solid c member), Bool.not_false]

theorem unquotePlus_percentEncode (text : Text) : unquotePlus (percentEncode text) = received text := by
  have proper : ∀ mark ∈ text.map fun c => (plusToSpace c, inQuerySet c), Escapable mark := by
    rintro _ member
    obtain ⟨c, _, rfl⟩ := List.mem_map.mp member
    cases escaped : inQuerySet c with
    | true =>
      obtain ⟨percent, _, plus, _, digit⟩ := inQuerySet_other escaped
      show plusToSpace c ≠ 37 ∧ hexDigit (plusToSpace c) = none
      rw [plusToSpace_of_ne plus]
      exact ⟨percent, digit⟩
    | false =>
      show plusToSpace c < 0x80
      simp only [inQuerySet, Bool.or_eq_false_iff, decide_eq_false_iff_not] at escaped
      unfold plusToSpace
      split <;> omega
  rw [unquotePlus, map_percentEncode, unquoteToBytes_written _ proper, List.map_map, received]
  rfl

/-! ## The syntax of a query -/

section Cutting

variable {separator : Nat} {front : Text}

theorem splitOn_append_of_not_mem (absent : separator ∉ front) (text : Text) :
    (front ++ text).splitOn separator = (text.splitOn separator).modifyHead (front ++ ·) := by
  induction front with
  | nil =>
    rw [List.nil_append]
    cases text.splitOn separator <;> rfl
  | cons c front ih =>
    have other : (c == separator) = false := beq_false_of_ne fun same => absent (same ▸ List.mem_cons_self)
    rw [List.cons_append, List.splitOn_cons_eq_if_modifyHead, other, if_neg Bool.false_ne_true,
      ih fun member => absent (List.mem_cons_of_mem _ member)]
    cases text.splitOn separator <;> rfl

theorem partition_append_of_not_mem (absent : separator ∉ front) (text : Text) :
    partition separator (front ++ text) = (front ++ (partition separator text).1, (partition separator text).2) := by
  have others : ∀ c ∈ front, decide (c ≠ separator) = true := by
    intro c member
    exact decide_eq_true fun same => absent (same ▸ member)
  rw [partition, List.takeWhile_append_of_pos others, List.dropWhile_append_of_pos others, partition]

theorem not_mem_takeWhile (separator : Nat) (text : Text) : separator ∉ text.takeWhile (· ≠ separator) := by
  intro member
  simpa using List.mem_takeWhile_imp member

theorem partition_cons_self (text : Text) : partition separator (separator :: text) = ([], text) := by
  simp [partition]

theorem splitOn_flatMap {replace : Nat → Text} (kept : replace separator = [separator])
    (fresh : ∀ c, c ≠ separator → separator ∉ replace c) (text : Text) :
    (text.flatMap replace).splitOn separator = (text.splitOn separator).map (·.flatMap replace) := by
  induction text with
  | nil => rfl
  | cons c text ih =>
    rw [List.flatMap_cons, List.splitOn_cons_eq_if_modifyHead]
    by_cases same : c = separator
    · subst same
      rw [kept, List.singleton_append, List.splitOn_cons_eq_if_modifyHead, if_pos (beq_self_eq_true _),
        if_pos (beq_self_eq_true _), ih]
      rfl
    · rw [splitOn_append_of_not_mem (fresh c same), ih, if_neg (by simpa using same)]
      cases text.splitOn separator <;> rfl

theorem partition_flatMap {replace : Nat → Text} (kept : replace separator = [separator])
    (fresh : ∀ c, c ≠ separator → separator ∉ replace c) (text : Text) :
    partition separator (text.flatMap replace) =
      ((partition separator text).1.flatMap replace, (partition separator text).2.flatMap replace) := by
  induction text with
  | nil => rfl
  | cons c text ih =>
    rw [List.flatMap_cons]
    by_cases same : c = separator
    · subst same
      rw [kept, List.singleton_append, partition_cons_self, partition_cons_self]
      rfl
    · have single : separator ∉ [c] := by simpa using Ne.symm same
      have first := partition_append_of_not_mem single text
      rw [List.singleton_append] at first
      rw [partition_append_of_not_mem (fresh c same), ih, first]
      rfl

theorem piece_of_splitOn {piece : Text} (member : piece ∈ text.splitOn separator) :
    piece.Sublist text ∧ separator ∉ piece := by
  induction text generalizing piece with
  | nil =>
    rw [List.splitOn_nil, List.mem_singleton] at member
    subst member
    simp
  | cons c text ih =>
    rw [List.splitOn_cons_eq_if_modifyHead] at member
    by_cases same : c = separator
    · rw [if_pos (by simpa using same)] at member
      rcases List.mem_cons.mp member with rfl | later
      · simp
      · exact ⟨(ih later).1.cons c, (ih later).2⟩
    · rw [if_neg (by simpa using same)] at member
      cases pieces : text.splitOn separator with
      | nil => exact absurd pieces (List.splitOn_ne_nil _ _)
      | cons head tail =>
        rw [pieces] at member ih
        rcases List.mem_cons.mp member with rfl | later
        · obtain ⟨kept, absent⟩ := ih List.mem_cons_self
          exact ⟨kept.cons_cons c, by simpa using ⟨Ne.symm same, absent⟩⟩
        · obtain ⟨kept, absent⟩ := ih (List.mem_cons_of_mem _ later)
          exact ⟨kept.cons c, absent⟩

theorem piece_of_append {piece : Text} (absent : separator ∉ front)
    (member : piece ∈ (front ++ text).splitOn separator) :
    piece = front ++ text ∧ separator ∉ text ∨
      separator ∈ text ∧ ∃ part, part ∈ text.splitOn separator ∧ (piece = front ++ part ∨ piece = part) := by
  rw [splitOn_append_of_not_mem absent] at member
  by_cases cut : separator ∈ text
  · right
    refine ⟨cut, ?_⟩
    cases pieces : text.splitOn separator with
    | nil => exact absurd pieces (List.splitOn_ne_nil _ _)
    | cons head tail =>
      rw [pieces] at member
      rcases List.mem_cons.mp member with rfl | later
      · exact ⟨head, List.mem_cons_self, .inl rfl⟩
      · exact ⟨piece, List.mem_cons_of_mem _ later, .inr rfl⟩
  · rw [List.splitOn_eq_singleton cut] at member
    exact .inl ⟨List.mem_singleton.mp member, cut⟩

theorem partition_sublist (text : Text) : (partition separator text).2.Sublist text :=
  (List.drop_sublist _ _).trans (List.dropWhile_sublist _)

end Cutting

theorem percentEncode_eq_nil : percentEncode text = [] ↔ text = [] := by
  cases text with
  | nil => simp [percentEncode]
  | cons c text =>
    obtain ⟨tail, start⟩ := escapeCode_eq_cons c
    rw [percentEncode, List.flatMap_cons, start]
    split <;> simp

/-- What a server reads off a query is decided by the text before it was escaped. -/
theorem parseQsl_percentEncode (query : Text) :
    parseQsl (percentEncode query) = ((query.splitOn 38).filter (· ≠ [])).map fun piece =>
      (received (partition 61 piece).1, received (partition 61 piece).2) := by
  have fresh {separator : Nat} (other : separator ≠ 37) (digit : hexDigit separator = none) :
      ∀ c, c ≠ separator → separator ∉ if inQuerySet c then escapeCode c else [c] := by
    intro c different
    split
    · exact not_mem_escapeCode other digit c
    · simpa using different.symm
  have pieces : (percentEncode query).splitOn 38 = (query.splitOn 38).map percentEncode :=
    splitOn_flatMap rfl (fresh (by simp) rfl) query
  have fields (piece : Text) : partition 61 (percentEncode piece) =
      (percentEncode (partition 61 piece).1, percentEncode (partition 61 piece).2) :=
    partition_flatMap rfl (fresh (by simp) rfl) piece
  rw [parseQsl, pieces, List.filter_map, List.map_map]
  simp only [Function.comp_def, fields, unquotePlus_percentEncode, ne_eq, percentEncode_eq_nil]

theorem mem_of_lastValue {items : List (Text × Text)} {key value : Text} (found : lastValue items key = some value) :
    (key, value) ∈ items := by
  obtain ⟨before, after, shape, _⟩ := List.lookup_eq_some_iff.mp found
  rw [← List.mem_reverse, shape]
  simp

/-! ## The address -/

theorem rdropWhile_append_of_last {blank : Nat → Bool} {front : Text} (nonempty : front ≠ [])
    (solid : ∀ c ∈ front, blank c = false) (text : Text) :
    (front ++ text).rdropWhile blank = front ++ text.rdropWhile blank := by
  obtain ⟨start, last, rfl⟩ := List.eq_nil_or_concat front |>.resolve_left nonempty
  have stops : (last :: start.reverse).dropWhile blank = last :: start.reverse :=
    List.dropWhile_cons_of_neg (by simp [solid last (by simp)])
  simp only [List.rdropWhile, List.concat_eq_append, List.reverse_append, List.reverse_cons, List.reverse_nil,
    List.nil_append, List.singleton_append, List.dropWhile_append, stops]
  split
  next blanks =>
    rw [List.isEmpty_iff.mp blanks]
    simp
  next => simp

theorem requestQuery_eq {path front : Text} (nonempty : path ≠ []) (solid : ∀ c ∈ path, 32 < c ∧ c ≠ 35 ∧ c ≠ 63)
    (solidFront : ∀ c ∈ front, 32 < c ∧ c ≠ 35) (unfragmented : 35 ∉ text) :
    requestQuery (path ++ 63 :: (front ++ text)) =
      percentEncode (front ++ (text.rdropWhile (· ≤ 32)).filter (!isNewline ·)) := by
  have before : ∀ c ∈ path ++ 63 :: front, 32 < c ∧ c ≠ 35 := by
    intro c member
    rcases List.mem_append.mp member with inPath | later
    · exact ⟨(solid c inPath).1, (solid c inPath).2.1⟩
    · rcases List.mem_cons.mp later with rfl | inFront
      · simp
      · exact solidFront c inFront
  have notBlank : ∀ c ∈ path ++ 63 :: front, decide (c ≤ 32) = false := by
    intro c member
    exact decide_eq_false (Nat.not_le.mpr (before c member).1)
  have kept : (path ++ 63 :: front).filter (!isNewline ·) = path ++ 63 :: front :=
    filter_newlines_of_solid fun c member => (before c member).1
  have rest : 35 ∉ (text.rdropWhile (· ≤ 32)).filter (!isNewline ·) := fun member =>
    unfragmented ((List.rdropWhile_prefix _ _).subset (List.mem_filter.mp member).1)
  have shape : path ++ 63 :: (front ++ text) = (path ++ 63 :: front) ++ text := by
    simp
  have start : ((path ++ 63 :: front) ++ text).dropWhile (· ≤ 32) = (path ++ 63 :: front) ++ text := by
    cases path with
    | nil => exact absurd rfl nonempty
    | cons c path => exact List.dropWhile_cons_of_neg (by simpa using notBlank c (by simp))
  have clean : cleaned (path ++ 63 :: (front ++ text)) =
      (path ++ 63 :: front) ++ (text.rdropWhile (· ≤ 32)).filter (!isNewline ·) := by
    rw [cleaned, shape, start, rdropWhile_append_of_last (by simp) notBlank, List.filter_append, kept]
  have whole : ((path ++ 63 :: front) ++ (text.rdropWhile (· ≤ 32)).filter (!isNewline ·)).takeWhile (· ≠ 35) =
      (path ++ 63 :: front) ++ (text.rdropWhile (· ≤ 32)).filter (!isNewline ·) := by
    rw [List.takeWhile_eq_self_iff]
    intro c member
    apply decide_eq_true
    rcases List.mem_append.mp member with early | late
    · exact (before c early).2
    · exact fun same => rest (same ▸ late)
  have skipped : ∀ c ∈ path, decide (c ≠ 63) = true := fun c member => decide_eq_true (solid c member).2.2
  rw [requestQuery, clean, whole, List.append_assoc, List.dropWhile_append_of_pos skipped]
  simp

/-! ## What is lost -/

def asciiCount (text : Text) : Nat := text.countP (· < 0x80)

def asciiBytes (bytes : Bytes) : Nat := bytes.countP (·.toNat < 0x80)

theorem asciiCount_decode (bytes : Bytes) : asciiCount (decodeUtf8Replacing bytes) = asciiBytes bytes := by
  rw [asciiCount, List.countP_eq_length_filter, filter_decodeUtf8Replacing, ← List.countP_eq_length_filter,
    List.countP_map]
  rfl

theorem asciiBytes_codeBytes (fits : c < 0x110000) : asciiBytes (codeBytes c) = asciiCount [c] := by
  by_cases ascii : c < 0x80
  · rw [codeBytes_ascii ascii, asciiBytes, asciiCount]
    simp [ascii, Nat.mod_eq_of_lt (show c < 256 by omega)]
  · have none_ : ∀ byte ∈ codeBytes c, 0x80 ≤ byte.toNat := by
      have small {n : Nat} (bound : n < 256) : n.toUInt8.toNat = n := toNat_toUInt8 bound
      unfold codeBytes encodeUtf8Code
      rw [if_neg ascii]
      split_ifs
      all_goals
        simp only [Option.getD_some, Option.getD_none, List.forall_mem_cons]
      · rw [small (by omega), small (by omega)]
        exact ⟨by omega, by omega, by simp⟩
      · exact ⟨by decide, by decide, by decide, by simp⟩
      · rw [small (by omega), small (by omega), small (by omega)]
        exact ⟨by omega, by omega, by omega, by simp⟩
      · rw [small (by omega), small (by omega), small (by omega), small (by omega)]
        exact ⟨by omega, by omega, by omega, by omega, by simp⟩
    rw [asciiBytes, asciiCount, List.countP_eq_zero.mpr]
    · simp [ascii]
    · intro byte member
      simpa using none_ byte member

theorem asciiBytes_append (first second : Bytes) :
    asciiBytes (first ++ second) = asciiBytes first + asciiBytes second := List.countP_append

theorem asciiCount_append (first second : Text) :
    asciiCount (first ++ second) = asciiCount first + asciiCount second := List.countP_append

theorem asciiCount_cons (c : Nat) (text : Text) : asciiCount (c :: text) = asciiCount [c] + asciiCount text :=
  asciiCount_append [c] text

theorem asciiBytes_cons (byte : UInt8) (bytes : Bytes) :
    asciiBytes (byte :: bytes) = asciiBytes [byte] + asciiBytes bytes := asciiBytes_append [byte] bytes

theorem asciiCount_singleton (ascii : c < 0x80) : asciiCount [c] = 1 := by
  simp [asciiCount, ascii]

theorem hasEscape_cons_of_other (other : ∀ high low rest, c = 37 → text = high :: low :: rest → False) :
    hasEscape (c :: text) = hasEscape text := by
  rw [hasEscape]
  by_cases percent : c = 37
  · match text, other with
    | [], _ => simp [hexAhead]
    | [_], _ => simp [hexAhead]
    | high :: low :: rest, other => exact (other high low rest percent rfl).elim
  · simp [percent]

theorem asciiBytes_sent (codes : ∀ c ∈ text, c < 0x110000) :
    asciiBytes (sent text) ≤ asciiCount text ∧
      (hasEscape text = true → asciiBytes (sent text) < asciiCount text) := by
  fun_induction sent text with
  | case1 high low text byte pair ih =>
    obtain ⟨_, _, first, second, _⟩ := hexByte_eq_some.mp pair
    have fewer := (ih fun c member => codes c (by simp [member])).1
    have one : asciiBytes [byte] ≤ 1 := List.countP_le_length
    rw [asciiBytes_cons, asciiCount_cons, asciiCount_cons high, asciiCount_cons low,
      asciiCount_singleton (c := 37) (by simp), asciiCount_singleton (hexDigit_lt first),
      asciiCount_singleton (hexDigit_lt second)]
    omega
  | case2 high low text alone ih =>
    obtain ⟨fewer, strictly⟩ := ih fun c member => codes c (by simp [member])
    have escapes : hasEscape (37 :: high :: low :: text) = hasEscape (high :: low :: text) := by
      rw [hasEscape, hexAhead, alone]
      simp
    rw [escapes, asciiBytes_cons, asciiCount_cons 37]
    exact ⟨Nat.add_le_add_left fewer 1, fun escaped => Nat.add_lt_add_left (strictly escaped) 1⟩
  | case3 c text other ih =>
    obtain ⟨small, others⟩ := List.forall_mem_cons.mp codes
    obtain ⟨fewer, strictly⟩ := ih others
    rw [hasEscape_cons_of_other other, asciiBytes_append, asciiBytes_codeBytes small, asciiCount_cons c text]
    exact ⟨Nat.add_le_add_left fewer _, fun escaped => Nat.add_lt_add_left (strictly escaped) _⟩
  | case4 => simp [asciiBytes, asciiCount, hasEscape]

theorem plusToSpace_lt {bound : Nat} (large : 32 < bound) (small : c < bound) : plusToSpace c < bound := by
  unfold plusToSpace
  split <;> assumption

theorem asciiCount_map_plusToSpace (text : Text) : asciiCount (text.map plusToSpace) = asciiCount text := by
  rw [asciiCount, List.countP_map, asciiCount]
  congr 1
  funext c
  by_cases plus : c = 43
  · subst plus
    rfl
  · rw [Function.comp_apply, plusToSpace_of_ne plus]

theorem hexDigit_plusToSpace (c : Nat) : hexDigit (plusToSpace c) = hexDigit c := by
  by_cases plus : c = 43
  · subst plus
    rfl
  · rw [plusToSpace_of_ne plus]

theorem hexAhead_map_plusToSpace (text : Text) : hexAhead (text.map plusToSpace) = hexAhead text := by
  match text with
  | [] => rfl
  | [_] => rfl
  | high :: low :: text => simp [hexAhead, hexByte, hexDigit_plusToSpace]

theorem hasEscape_map_plusToSpace (text : Text) : hasEscape (text.map plusToSpace) = hasEscape text := by
  induction text with
  | nil => rfl
  | cons c text ih =>
    have percent : (plusToSpace c == 37) = (c == 37) := by
      by_cases plus : c = 43
      · subst plus
        rfl
      · rw [plusToSpace_of_ne plus]
    rw [List.map_cons, hasEscape, hasEscape, ih, hexAhead_map_plusToSpace, percent]

/-- Nothing is added by a server, and an escape is noticed. -/
theorem asciiCount_received (codes : ∀ c ∈ text, c < 0x110000) :
    asciiCount (received text) ≤ asciiCount text ∧
      (hasEscape text = true → asciiCount (received text) < asciiCount text) := by
  have small : ∀ c ∈ text.map plusToSpace, c < 0x110000 := by
    intro _ member
    obtain ⟨c, listed, rfl⟩ := List.mem_map.mp member
    exact plusToSpace_lt (by simp) (codes c listed)
  have counts := asciiBytes_sent small
  rwa [asciiCount_map_plusToSpace, hasEscape_map_plusToSpace, ← asciiCount_decode] at counts

theorem sent_of_no_escape {bytes : Bytes} (none_ : hasEscape text = false) (encoded : encodeUtf8 text = some bytes) :
    sent text = bytes := by
  fun_induction sent text generalizing bytes with
  | case1 high low text byte pair ih => simp [hasEscape, hexAhead, pair] at none_
  | case2 high low text alone ih =>
    obtain ⟨first, rest, head, tail, rfl⟩ := encodeUtf8_cons_eq_some.mp encoded
    cases head
    rw [hasEscape, Bool.or_eq_false_iff] at none_
    rw [ih none_.2 tail]
    rfl
  | case3 c text other ih =>
    obtain ⟨first, rest, head, tail, rfl⟩ := encodeUtf8_cons_eq_some.mp encoded
    rw [hasEscape, Bool.or_eq_false_iff] at none_
    rw [ih none_.2 tail, codeBytes, head, Option.getD_some]
  | case4 => cases encoded; rfl

theorem encodeUtf8_map_plusToSpace (text : Text) :
    (encodeUtf8 (text.map plusToSpace)).isSome = (encodeUtf8 text).isSome := by
  rw [isSome_encodeUtf8, isSome_encodeUtf8, List.all_map]
  congr 1
  funext c
  by_cases plus : c = 43
  · subst plus
    rfl
  · rw [Function.comp_apply, plusToSpace_of_ne plus]

theorem received_of_no_escape (codes : ∀ c ∈ text, c < 0x110000) (encodable : (encodeUtf8 text).isSome = true)
    (none_ : hasEscape text = false) : received text = text.map plusToSpace := by
  rw [← encodeUtf8_map_plusToSpace] at encodable
  obtain ⟨bytes, encoded⟩ := Option.isSome_iff_exists.mp encodable
  have small : ∀ c ∈ text.map plusToSpace, c < 0x110000 := by
    intro _ member
    obtain ⟨c, listed, rfl⟩ := List.mem_map.mp member
    exact plusToSpace_lt (by simp) (codes c listed)
  rw [received, sent_of_no_escape ((hasEscape_map_plusToSpace text).trans none_) encoded]
  exact decodeUtf8Replacing_encode small encoded

theorem hasEscape_of_not_mem (absent : 37 ∉ text) : hasEscape text = false := by
  induction text with
  | nil => rfl
  | cons c text ih =>
    have other : c ≠ 37 := fun same => absent (same ▸ List.mem_cons_self)
    rw [hasEscape, ih fun member => absent (List.mem_cons_of_mem _ member)]
    simp [other]

theorem received_ascii (plain : ∀ c ∈ text, c < 0x80 ∧ c ≠ 37 ∧ c ≠ 43) : received text = text := by
  have ascii : IsAscii text := fun c member => (plain c member).1
  have codes : ∀ c ∈ text, c < 0x110000 := fun c member => lt_trans (ascii c member) (by simp)
  have encodable : (encodeUtf8 text).isSome = true := by rw [encodeUtf8_ascii ascii, Option.isSome_some]
  have percent : 37 ∉ text := fun member => (plain 37 member).2.1 rfl
  have plus : 43 ∉ text := fun member => (plain 43 member).2.2 rfl
  rw [received_of_no_escape codes encodable (hasEscape_of_not_mem percent), map_plusToSpace_of_not_mem plus]

theorem received_field {key value : Text} (plain : ∀ c ∈ key, c < 0x80 ∧ c ≠ 37 ∧ c ≠ 43) (unassigned : 61 ∉ key)
    (read : received value = value) :
    (received (partition 61 (key ++ 61 :: value)).1, received (partition 61 (key ++ 61 :: value)).2) =
      (key, value) := by
  rw [partition_append_of_not_mem unassigned, partition_cons_self, List.append_nil, received_ascii plain, read]

theorem asciiCount_lt_of_lost {kept : Text} (shorter : kept.Sublist text) (ascii : c < 0x80) (there : c ∈ text)
    (lost : c ∉ kept) : asciiCount kept < asciiCount text := by
  have fewer : asciiCount kept ≤ asciiCount text := shorter.countP_le
  apply lt_of_le_of_ne fewer
  intro same
  rw [asciiCount, asciiCount, List.countP_eq_length_filter, List.countP_eq_length_filter] at same
  have all := (shorter.filter fun c => decide (c < 0x80)).eq_of_length same
  have still : c ∈ kept.filter fun c => decide (c < 0x80) := by
    rw [all]
    exact List.mem_filter.mpr ⟨there, decide_eq_true ascii⟩
  exact lost (List.mem_filter.mp still).1

theorem exists_piece_of_lastValue {query key value : Text}
    (found : lastValue (parseQsl (percentEncode query)) key = some value) :
    ∃ piece ∈ query.splitOn 38, received (partition 61 piece).1 = key ∧ received (partition 61 piece).2 = value := by
  have item := mem_of_lastValue found
  rw [parseQsl_percentEncode] at item
  obtain ⟨piece, listed, same⟩ := List.mem_map.mp item
  obtain ⟨rfl, rfl⟩ := Prod.mk.inj same
  exact ⟨piece, (List.mem_filter.mp listed).1, rfl, rfl⟩

/-- A text that is put into a query as a value is received as a whole, or something of it is lost. -/
theorem received_value {key piece : Text} (codes : ∀ c ∈ text, c < 0x110000) (unseparated : 38 ∉ key)
    (unassigned : 61 ∉ key) (member : piece ∈ (key ++ 61 :: text).splitOn 38) :
    38 ∉ text ∧ received (partition 61 piece).2 = received text ∨
      asciiCount (received (partition 61 piece).2) < asciiCount text := by
  have value (part : Text) : (partition 61 (key ++ 61 :: part)).2 = part := by
    rw [partition_append_of_not_mem unassigned, partition_cons_self]
  have front : 38 ∉ key ++ [61] := by simpa using unseparated
  rw [← List.singleton_append, ← List.append_assoc] at member
  rcases piece_of_append front member with ⟨rfl, whole⟩ | ⟨cut, part, listed, shape⟩
  · left
    rw [List.append_assoc, List.singleton_append, value]
    exact ⟨whole, rfl⟩
  · right
    obtain ⟨kept, absent⟩ := piece_of_splitOn listed
    have sub : (partition 61 piece).2.Sublist part := by
      rcases shape with rfl | rfl
      · rw [List.append_assoc, List.singleton_append, value]
      · exact partition_sublist _
    have fewer := (asciiCount_received fun c member => codes c (kept.subset (sub.subset member))).1
    calc asciiCount (received (partition 61 piece).2)
        ≤ asciiCount (partition 61 piece).2 := fewer
      _ ≤ asciiCount part := sub.countP_le
      _ < asciiCount text := asciiCount_lt_of_lost kept (by simp) cut absent

end Url
