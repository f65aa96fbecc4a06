import DataPipeline.Library.Lines

/-! The Prometheus text format, version 0.0.4: what an exposition consists of and how
it is written.

A number is any numeral that the format's own reader takes, which is a parameter.
-/

set_option autoImplicit false

namespace DataPipeline.Dashboard.Exposition

open Encoding

def isBlank (c : Nat) : Bool := c = 32 || c = 9

abbrev Blanks := { text : Text // ∀ c ∈ text, isBlank c = true }

def isLetter (c : Nat) : Bool := (65 ≤ c && c ≤ 90) || (97 ≤ c && c ≤ 122)

/-- Names of metrics may have colons, names of labels may not. -/
def startsName (colons : Bool) (c : Nat) : Bool := isLetter c || c = 95 || (colons && c = 58)

structure Name (colons : Bool) where
  first : Nat
  others : Text
  starts : startsName colons first = true
  continues : ∀ c ∈ others, (startsName colons c || isDigit c) = true

def Name.text {colons : Bool} (name : Name colons) : Text := name.first :: name.others

def escape (value : Text) : Text :=
  value.flatMap fun c => if c = 92 then [92, 92] else if c = 34 then [92, 34] else if c = 10 then [92, 110] else [c]

structure Label where
  before : Blanks
  name : Name false
  beforeEquals : Blanks
  afterEquals : Blanks
  value : Text
  after : Blanks

def Label.text (label : Label) : Text :=
  label.before.1 ++ label.name.text ++ label.beforeEquals.1 ++ [61] ++ label.afterEquals.1 ++
    [34] ++ escape label.value ++ [34] ++ label.after.1

/-- What stands between the braces. A comma may follow the last label. -/
inductive Labels where
  | none (blanks : Blanks)
  | some (first : Label) (others : List Label) (comma : Option Blanks)

def commaText : Option Blanks → Text
  | .none => []
  | .some blanks => 44 :: blanks.1

def Labels.text : Labels → Text
  | none blanks => blanks.1
  | some first others comma => first.text ++ (others.flatMap fun label => 44 :: label.text) ++ commaText comma

structure LabelSet where
  gap : Blanks
  labels : Labels

def LabelSet.text (set : LabelSet) : Text := set.gap.1 ++ 123 :: set.labels.text ++ [125]

/-- Letters and digits, signs, points and underscores. -/
def inNumeral (c : Nat) : Bool := isLetter c || isDigit c || c = 43 || c = 45 || c = 46 || c = 95

structure Numeral where
  text : Text
  ne_nil : text ≠ []
  plain : ∀ c ∈ text, inNumeral c = true

structure Timestamp where
  gap : Blanks
  numeral : Numeral
  apart : gap.1 ≠ []

variable {Value : Type} (parseFloat : Text → Option Value)

structure Sample where
  lead : Blanks
  name : Name true
  labels : Option LabelSet
  gap : Blanks
  numeral : Numeral
  value : Value
  timestamp : Option Timestamp
  trail : Blanks
  reads : parseFloat numeral.text = some value
  apart : labels = none → gap.1 ≠ []

namespace Sample

variable {parseFloat} (sample : Sample parseFloat)

def series : Text := sample.name.text ++ (sample.labels.map LabelSet.text).getD []

def timestampText : Text := (sample.timestamp.map fun timestamp => timestamp.gap.1 ++ timestamp.numeral.text).getD []

def text : Text :=
  sample.lead.1 ++ sample.series ++ sample.gap.1 ++ sample.numeral.text ++ sample.timestampText ++ sample.trail.1

end Sample

/-- A comment may be HELP, TYPE or neither. -/
inductive Line where
  | blank (blanks : Blanks)
  | comment (lead : Blanks) (text : Text) (single : 10 ∉ text)
  | sample (given : Sample parseFloat)

variable {parseFloat} in
def Line.text : Line parseFloat → Text
  | blank blanks => blanks.1
  | comment lead text _ => lead.1 ++ 35 :: text
  | sample given => given.text

variable {parseFloat} in
def Line.sample? : Line parseFloat → Option (Sample parseFloat)
  | sample given => some given
  | _ => none

/-- No series is given twice. -/
structure Document where
  lines : List (Line parseFloat)
  distinct : ((lines.filterMap Line.sample?).map Sample.series).Nodup

namespace Document

variable {parseFloat} (document : Document parseFloat)

def samples : List (Sample parseFloat) := document.lines.filterMap Line.sample?

def text : Text := document.lines.flatMap fun line => line.text ++ [10]

end Document

/-! ## Characters -/

/-- What neither a name nor a numeral contains: spaces, quotes, braces and number signs. -/
def IsPlain (c : Nat) : Prop := Lines.isSpace c = false ∧ c ≠ 34 ∧ c ≠ 35 ∧ c ≠ 123 ∧ c ≠ 125

theorem isPlain_of_range {c : Nat} (range : (43 ≤ c ∧ c ≤ 95) ∨ (97 ≤ c ∧ c ≤ 122)) : IsPlain c := by
  refine ⟨?_, by omega, by omega, by omega, by omega⟩
  simp [Lines.isSpace]
  omega

theorem startsName_range {colons : Bool} {c : Nat} (starts : startsName colons c = true) :
    (43 ≤ c ∧ c ≤ 95) ∨ (97 ≤ c ∧ c ≤ 122) := by
  simp only [startsName, isLetter, Bool.or_eq_true, Bool.and_eq_true, decide_eq_true_eq] at starts
  omega

theorem Name.plain {colons : Bool} (name : Name colons) : ∀ c ∈ name.text, IsPlain c := by
  intro c member
  refine isPlain_of_range ?_
  rcases List.mem_cons.mp member with rfl | later
  · exact startsName_range name.starts
  · have continues := name.continues c later
    rw [Bool.or_eq_true, isDigit_iff] at continues
    rcases continues with starts | digit
    · exact startsName_range starts
    · omega

theorem Numeral.isPlain (numeral : Numeral) : ∀ c ∈ numeral.text, IsPlain c := by
  intro c member
  refine isPlain_of_range ?_
  have plain := numeral.plain c member
  simp only [inNumeral, isLetter, isDigit, Bool.or_eq_true, Bool.and_eq_true, decide_eq_true_eq] at plain
  omega

theorem isSpace_of_isBlank {c : Nat} (blank : isBlank c = true) : Lines.isSpace c = true := by
  simp only [isBlank, Bool.or_eq_true, decide_eq_true_eq] at blank
  rcases blank with rfl | rfl <;> rfl

/-! ## Where a series ends -/

inductive Place where
  | outside
  | quoted
  | escaped
  | closed
  | beyond
  deriving DecidableEq

def Place.next : Place → Nat → Place
  | outside, c => if c = 34 then quoted else if c = 125 then closed else outside
  | quoted, c => if c = 34 then outside else if c = 92 then escaped else quoted
  | escaped, _ => quoted
  | closed, _ => beyond
  | beyond, _ => beyond

def Place.after (place : Place) (text : Text) : Place := text.foldl Place.next place

namespace Place

theorem after_append (place : Place) (first rest : Text) :
    place.after (first ++ rest) = (place.after first).after rest := List.foldl_append

theorem beyond_after (text : Text) : beyond.after text = beyond := by
  induction text with
  | nil => rfl
  | cons c text ih => exact ih

theorem closed_after {text : Text} (some_ : text ≠ []) : closed.after text = beyond := by
  cases text with
  | nil => exact absurd rfl some_
  | cons c text => exact beyond_after text

theorem outside_after {text : Text} (plain : ∀ c ∈ text, c ≠ 34 ∧ c ≠ 125) : outside.after text = outside := by
  induction text with
  | nil => rfl
  | cons c text ih =>
    obtain ⟨unquoted, inside⟩ := plain c List.mem_cons_self
    have stays : outside.next c = outside := by rw [next, if_neg unquoted, if_neg inside]
    rw [after, List.foldl_cons, stays]
    exact ih fun d member => plain d (List.mem_cons_of_mem c member)

theorem quoted_after_escape (value : Text) : quoted.after (escape value) = quoted := by
  induction value with
  | nil => rfl
  | cons c value ih =>
    have one : quoted.after
        (if c = 92 then [92, 92] else if c = 34 then [92, 34] else if c = 10 then [92, 110] else [c]) = quoted := by
      split
      next => rfl
      next unescaped =>
        split
        next => rfl
        next unquoted =>
          split
          next => rfl
          next => exact (if_neg unquoted).trans (if_neg unescaped)
    rw [escape, List.flatMap_cons, after_append, one]
    exact ih

end Place

open Place

theorem Blanks.outside (blanks : Blanks) : outside.after blanks.1 = outside := by
  refine outside_after fun c member => ?_
  have blank := blanks.2 c member
  simp only [isBlank, Bool.or_eq_true, decide_eq_true_eq] at blank
  omega

theorem Name.outside {colons : Bool} (name : Name colons) : outside.after name.text = outside :=
  outside_after fun c member => ⟨(name.plain c member).2.1, (name.plain c member).2.2.2.2⟩

theorem Label.outside (label : Label) : Place.outside.after label.text = Place.outside := by
  have sign : Place.outside.after [61] = Place.outside := rfl
  have quote : Place.outside.after [34] = quoted := rfl
  have unquote : quoted.after [34] = Place.outside := rfl
  rw [Label.text]
  simp only [after_append, Blanks.outside, Name.outside, sign, quote, quoted_after_escape, unquote]

theorem Labels.outside (labels : Labels) : Place.outside.after labels.text = Place.outside := by
  have comma (text : Text) : Place.outside.after (44 :: text) = Place.outside.after text := rfl
  cases labels with
  | none blanks => exact Blanks.outside blanks
  | some first others last =>
    have each : Place.outside.after (others.flatMap fun label => 44 :: label.text) = Place.outside := by
      induction others with
      | nil => rfl
      | cons label others ih => rw [List.flatMap_cons, List.cons_append, comma, after_append, Label.outside, ih]
    rw [Labels.text, after_append, after_append, Label.outside, each]
    cases last with
    | none => rfl
    | some blanks => exact (comma blanks.1).trans (Blanks.outside blanks)

theorem LabelSet.text_eq (set : LabelSet) : set.text = set.gap.1 ++ 123 :: (set.labels.text ++ [125]) := by
  rw [LabelSet.text, List.append_assoc, List.cons_append]

theorem LabelSet.closed (set : LabelSet) : Place.outside.after set.text = Place.closed := by
  have brace (text : Text) : Place.outside.after (123 :: text) = Place.outside.after text := rfl
  rw [LabelSet.text_eq, after_append, Blanks.outside, brace, after_append, Labels.outside]
  rfl

namespace Sample

variable {parseFloat} {sample other : Sample parseFloat}

theorem after_series (sample : Sample parseFloat) :
    Place.outside.after sample.series = if sample.labels = none then Place.outside else Place.closed := by
  rw [series, after_append, Name.outside]
  cases sample.labels with
  | none => rfl
  | some set => exact set.closed

/-- A series goes on after another only where that one has no labels. -/
theorem labels_of_append {rest : Text} (same : other.series ++ rest = sample.series) (some_ : rest ≠ []) :
    other.labels = none := by
  by_contra labelled
  have whole := after_series sample
  rw [← same, after_append, after_series other, if_neg labelled, closed_after some_] at whole
  split at whole <;> cases whole

theorem series_of_labels (none_ : sample.labels = none) : sample.series = sample.name.text := by
  rw [series, none_]
  exact List.append_nil _

end Sample

end DataPipeline.Dashboard.Exposition
