import DataPipeline.Dashboard.Exposition
import DataPipeline.Library.Scheduling

/-! The counters that `services/dashboard/routers/sse.py` picks from the ingestor's
metrics, line by line and word by word.
-/

set_option autoImplicit false

namespace DataPipeline.Dashboard

open Encoding Lines Exposition Scheduling

def dashboardCounters : List Text :=
  ["http_requests_total", "records_created_total", "http_responses_total"].map Text.ofString

def surfaced (name : Text) : Bool := dashboardCounters.any fun key => decide (key <:+: name)

section

variable {Value : Type} (float : Text → Option Value)

/-- One pass of the loop. A `ValueError` of `float` is suppressed. -/
def readLine (counters : List (Text × Value)) (line : Text) : List (Text × Value) :=
  if line.head? = some 35 ∨ line.all isSpace = true then counters
  else
    match split line with
    | name :: value :: _ =>
      if surfaced name then
        match float value with
        | some number => put Prod.fst counters (name, number)
        | none => counters
      else counters
    | _ => counters

def parsePrometheusText (text : Text) : List (Text × Value) := (splitlines text).foldl (readLine float) []

def reading (line : Text) : Option (Text × Value) :=
  if line.head? = some 35 ∨ line.all isSpace = true then none
  else
    match split line with
    | name :: value :: _ => if surfaced name then (float value).map fun number => (name, number) else none
    | _ => none

def readings (text : Text) : List (Text × Value) := (splitlines text).filterMap (reading float)

def IsLast (entries : List (Text × Value)) (key : Text) (value : Value) : Prop :=
  ∃ before after, entries = before ++ (key, value) :: after ∧ ∀ entry ∈ after, entry.1 ≠ key

variable {parseFloat : Text → Option Value}

def selected (document : Document parseFloat) : List (Text × Value) :=
  (document.samples.filter fun sample => surfaced sample.name.text).map fun sample => (sample.series, sample.value)

/-- One entry for each of these series and nothing else. -/
def Faithful (document : Document parseFloat) : Prop :=
  (parsePrometheusText float document.text).Perm (selected document)

end

variable {Value : Type} {float parseFloat : Text → Option Value} {document : Document parseFloat} {line : Text}

theorem readLine_eq (counters : List (Text × Value)) (line : Text) :
    readLine float counters line = ((reading float line).map (put Prod.fst counters)).getD counters := by
  unfold readLine reading
  split
  next => rfl
  next =>
    split
    next name value _ _ =>
      split
      next => cases float value <;> rfl
      next => rfl
    next => rfl

theorem parsePrometheusText_eq (text : Text) :
    parsePrometheusText float text = (readings float text).foldl (put Prod.fst) [] := by
  have loop (lines : List Text) (counters : List (Text × Value)) :
      lines.foldl (readLine float) counters = (lines.filterMap (reading float)).foldl (put Prod.fst) counters := by
    induction lines generalizing counters with
    | nil => rfl
    | cons line lines ih =>
      rw [List.foldl_cons, ih, readLine_eq, List.filterMap_cons]
      cases reading float line <;> rfl
  exact loop _ []

theorem mem_parsePrometheusText {text key : Text} {value : Value} :
    (key, value) ∈ parsePrometheusText float text ↔ IsLast (readings float text) key value := by
  rw [parsePrometheusText_eq, mem_foldl_put_iff]
  exact or_iff_left fun both => nomatch both.1

theorem IsLast.mem {entries : List (Text × Value)} {key : Text} {value : Value} (last : IsLast entries key value) :
    (key, value) ∈ entries := by
  obtain ⟨before, after, rfl, _⟩ := last
  exact List.mem_append_right before List.mem_cons_self

theorem exists_isLast {entries : List (Text × Value)} {entry : Text × Value} (member : entry ∈ entries) :
    ∃ value, IsLast entries entry.1 value := by
  induction entries using List.reverseRecOn with
  | nil => cases member
  | append_singleton entries final ih =>
    by_cases same : final.1 = entry.1
    · exact ⟨final.2, entries, [], by rw [← same], nofun⟩
    · have earlier : entry ∈ entries := by
        rcases List.mem_append.mp member with present | last
        · exact present
        · exact absurd (congrArg Prod.fst (List.mem_singleton.mp last).symm) same
      obtain ⟨value, before, after, rfl, last⟩ := ih earlier
      refine ⟨value, before, after ++ [final], by simp, fun other listed => ?_⟩
      rcases List.mem_append.mp listed with present | new
      · exact last other present
      · rw [List.mem_singleton.mp new]
        exact same

theorem nodup_keys (text : Text) : ((parsePrometheusText float text).map Prod.fst).Nodup := by
  rw [parsePrometheusText_eq]
  exact @nodup_foldl_put _ _ _ Prod.fst [] List.nodup_nil _

theorem value_unique {text key : Text} {value other : Value} (last : IsLast (readings float text) key value)
    (also : IsLast (readings float text) key other) : value = other := by
  have same := List.inj_on_of_nodup_map (nodup_keys text) (mem_parsePrometheusText.mpr last)
    (mem_parsePrometheusText.mpr also) rfl
  exact congrArg Prod.snd same

theorem nodup_selected (document : Document parseFloat) : (selected document).Nodup := by
  refine List.Nodup.of_map Prod.fst ?_
  rw [selected, List.map_map]
  exact (document.distinct.sublist ((List.filter_sublist (p := fun sample : Sample parseFloat =>
    surfaced sample.name.text)).map Sample.series))

theorem mem_selected {key : Text} {value : Value} : (key, value) ∈ selected document ↔
    ∃ sample ∈ document.samples, surfaced sample.name.text = true ∧ sample.series = key ∧ sample.value = value := by
  simp only [selected, List.mem_map, List.mem_filter, Prod.mk.injEq, and_assoc]

theorem faithful_iff_mem (document : Document parseFloat) : Faithful float document ↔
    ∀ key value, IsLast (readings float document.text) key value ↔ (key, value) ∈ selected document := by
  rw [Faithful, List.perm_ext_iff_of_nodup ((nodup_keys _).of_map Prod.fst) (nodup_selected document)]
  simp only [Prod.forall, mem_parsePrometheusText]

/-- Each entry that is read anywhere belongs to a series that is wanted, and the last one
for that series has the value of its sample. -/
def ReadsSelected (float : Text → Option Value) (document : Document parseFloat) : Prop :=
  (∀ entry ∈ readings float document.text, ∃ sample ∈ document.samples,
    surfaced sample.name.text = true ∧ sample.series = entry.1) ∧
  ∀ sample ∈ document.samples, surfaced sample.name.text = true →
    IsLast (readings float document.text) sample.series sample.value

theorem faithful_iff_readsSelected (document : Document parseFloat) :
    Faithful float document ↔ ReadsSelected float document := by
  rw [faithful_iff_mem]
  constructor
  · intro same
    refine ⟨fun entry member => ?_, fun sample member wanted => ?_⟩
    on_goal 2 => exact (same _ _).mpr (mem_selected.mpr ⟨sample, member, wanted, rfl, rfl⟩)
    obtain ⟨value, last⟩ := exists_isLast member
    obtain ⟨sample, listed, wanted, series, _⟩ := mem_selected.mp ((same entry.1 value).mp last)
    exact ⟨sample, listed, wanted, series⟩
  · rintro ⟨only, all⟩ key value
    constructor
    · intro last
      obtain ⟨sample, listed, wanted, rfl⟩ := only _ last.mem
      exact mem_selected.mpr ⟨sample, listed, wanted, rfl, value_unique (all sample listed wanted) last⟩
    · intro member
      obtain ⟨sample, listed, wanted, rfl, rfl⟩ := mem_selected.mp member
      exact all sample listed wanted

/-! ## One line -/

section Reading

variable {sample other : Sample parseFloat} {key : Text} {value : Value}

theorem reading_eq_some (read : reading float line = some (key, value)) :
    ∃ second words, split line = key :: second :: words ∧ float second = some value := by
  unfold reading at read
  split at read
  next => cases read
  next =>
    split at read
    next name second words cut =>
      split at read
      next =>
        obtain ⟨number, converted, same⟩ := Option.map_eq_some_iff.mp read
        cases same
        exact ⟨second, words, cut, converted⟩
      next => cases read
    next => cases read

def Exposition.Sample.rest (sample : Sample parseFloat) : Text :=
  sample.gap.1 ++ (sample.numeral.text ++ (sample.timestampText ++ sample.trail.1))

theorem text_eq (sample : Sample parseFloat) : sample.text = sample.lead.1 ++ (sample.series ++ sample.rest) := by
  simp only [Sample.text, Sample.rest, List.append_assoc]

theorem blanks_space (blanks : Blanks) : ∀ c ∈ blanks.1, isSpace c = true :=
  fun c member => isSpace_of_isBlank (blanks.2 c member)

theorem series_eq (sample : Sample parseFloat) :
    ∃ more, sample.series = sample.name.first :: more := ⟨_, List.cons_append⟩

theorem split_text (sample : Sample parseFloat) : split sample.text = split (sample.series ++ sample.rest) := by
  rw [text_eq, split_spaces (blanks_space sample.lead)]

theorem not_skipped (sample : Sample parseFloat) :
    ¬ (sample.text.head? = some 35 ∨ sample.text.all isSpace = true) := by
  obtain ⟨more, series⟩ := series_eq sample
  have first := sample.name.plain sample.name.first List.mem_cons_self
  rintro (sign | spaces)
  · rw [text_eq, series] at sign
    cases lead : sample.lead.1 with
    | nil =>
      rw [lead] at sign
      exact first.2.2.1 (Option.some.inj sign)
    | cons c lead' =>
      rw [lead] at sign
      have blank := sample.lead.2 c (lead ▸ List.mem_cons_self)
      rw [Option.some.inj sign] at blank
      cases blank
  · have member : sample.name.first ∈ sample.text := by
      rw [text_eq, series]
      exact List.mem_append_right _ List.mem_cons_self
    have inside := first.1
    rw [List.all_eq_true.mp spaces _ member] at inside
    cases inside

theorem tail_stops (sample : Sample parseFloat) :
    ∀ c, (sample.timestampText ++ sample.trail.1).head? = some c → isSpace c = true := by
  intro c first
  cases stamped : sample.timestamp with
  | none =>
    rw [Sample.timestampText, stamped] at first
    exact blanks_space sample.trail c (List.mem_of_mem_head? first)
  | some timestamp =>
    rw [Sample.timestampText, stamped] at first
    cases gap : timestamp.gap.1 with
    | nil => exact absurd gap timestamp.apart
    | cons d gap' =>
      simp only [Option.map_some, Option.getD_some, gap, List.cons_append, List.head?_cons, Option.some.injEq] at first
      exact first ▸ blanks_space timestamp.gap d (gap ▸ List.mem_cons_self)

theorem split_numeral (sample : Sample parseFloat) :
    split (sample.numeral.text ++ (sample.timestampText ++ sample.trail.1)) =
      sample.numeral.text :: split (sample.timestampText ++ sample.trail.1) :=
  split_word (fun c member => (sample.numeral.isPlain c member).1) sample.numeral.ne_nil (tail_stops sample)

theorem reading_of_solid (solid : ∀ c ∈ sample.series, isSpace c = false) (apart : sample.gap.1 ≠ []) :
    reading float sample.text =
      if surfaced sample.series then (float sample.numeral.text).map fun number => (sample.series, number)
      else none := by
  have stops : ∀ c, sample.rest.head? = some c → isSpace c = true := by
    intro c first
    cases gap : sample.gap.1 with
    | nil => exact absurd gap apart
    | cons d gap' =>
      rw [Sample.rest, gap] at first
      exact Option.some.inj first ▸ blanks_space sample.gap d (gap ▸ List.mem_cons_self)
  have some_ : sample.series ≠ [] := by
    obtain ⟨more, series⟩ := series_eq sample
    rw [series]
    exact List.cons_ne_nil _ more
  rw [reading, if_neg (not_skipped sample), split_text, split_word solid some_ stops, Sample.rest,
    split_spaces (blanks_space sample.gap), split_numeral]

theorem surfaced_series (wanted : surfaced sample.name.text = true) : surfaced sample.series = true := by
  obtain ⟨counter, listed, inside⟩ := List.any_eq_true.mp wanted
  refine List.any_eq_true.mpr ⟨counter, listed, decide_eq_true ?_⟩
  exact (of_decide_eq_true inside).trans (List.prefix_append _ _).isInfix

theorem key_of_touching (solid : ∀ c ∈ sample.series, isSpace c = false) (touching : sample.gap.1 = [])
    (read : reading float sample.text = some (key, value)) : key ≠ other.series := by
  rintro rfl
  obtain ⟨second, words, cut, _⟩ := reading_eq_some read
  have together : ∀ c ∈ sample.series ++ sample.numeral.text, isSpace c = false := by
    intro c member
    rcases List.mem_append.mp member with inside | numeral
    · exact solid c inside
    · exact (sample.numeral.isPlain c numeral).1
  have some_ : sample.series ++ sample.numeral.text ≠ [] :=
    fun nothing => sample.numeral.ne_nil (List.append_eq_nil_iff.mp nothing).2
  rw [split_text, Sample.rest, touching, List.nil_append, ← List.append_assoc,
    split_word together some_ (tail_stops sample), List.cons.injEq] at cut
  have unlabelled := Sample.labels_of_append cut.1 sample.numeral.ne_nil
  exact sample.apart unlabelled touching

theorem split_spaced (spaced : ∃ c ∈ sample.series, isSpace c = true) :
    ∃ word c tail, sample.series = word ++ c :: tail ∧ word = sample.series.takeWhile (fun d => !isSpace d) ∧
      split sample.text = word :: split (c :: tail ++ sample.rest) := by
  have cut := List.takeWhile_append_dropWhile (p := fun d => !isSpace d) (l := sample.series)
  cases dropped : sample.series.dropWhile fun d => !isSpace d with
  | nil =>
    obtain ⟨c, member, space⟩ := spaced
    have inside := List.dropWhile_eq_nil_iff.mp dropped c member
    rw [space] at inside
    cases inside
  | cons c tail =>
    rw [dropped] at cut
    have space : isSpace c = true := by
      have stops := List.head?_dropWhile_not (fun d => !isSpace d) sample.series
      rw [dropped] at stops
      simpa using stops
    have some_ : sample.series.takeWhile (fun d => !isSpace d) ≠ [] := by
      obtain ⟨more, series⟩ := series_eq sample
      have first := (sample.name.plain sample.name.first List.mem_cons_self).1
      rw [series, List.takeWhile_cons_of_pos (by rw [first]; rfl)]
      exact List.cons_ne_nil _ _
    refine ⟨_, c, tail, cut.symm, rfl, ?_⟩
    rw [split_text]
    nth_rewrite 1 [← cut]
    rw [List.append_assoc]
    refine split_word (fun d member => by simpa using List.mem_takeWhile_imp member) some_ fun d first => ?_
    exact Option.some.inj first ▸ space

/-- Where a series is cut at a space, what is left of it is a series only if the space comes
before the label set, which is then taken for the value. -/
theorem key_of_spaced (refuses : ∀ rest, float (123 :: rest) = none) (spaced : ∃ c ∈ sample.series, isSpace c = true)
    (read : reading float sample.text = some (key, value)) : key ≠ other.series := by
  rintro rfl
  obtain ⟨second, words, cut, converted⟩ := reading_eq_some read
  obtain ⟨word, c, tail, series, taken, left⟩ := split_spaced spaced
  rw [left, List.cons.injEq] at cut
  obtain ⟨rfl, later⟩ := cut
  have unlabelled := Sample.labels_of_append series.symm (List.cons_ne_nil c tail)
  cases labels : sample.labels with
  | none =>
    obtain ⟨d, member, space⟩ := spaced
    rw [Sample.series_of_labels labels] at member
    rw [(sample.name.plain d member).1] at space
    cases space
  | some set =>
    have whole : sample.series = sample.name.text ++ set.text := by rw [Sample.series, labels]; rfl
    have solid : ∀ d ∈ sample.name.text, (!isSpace d) = true := by
      intro d member
      rw [(sample.name.plain d member).1]
      rfl
    rw [whole, List.takeWhile_append_of_pos solid] at taken
    cases gap : set.gap.1 with
    | nil =>
      have brace : 123 ∈ other.series := by
        rw [taken, LabelSet.text_eq, gap]
        exact List.mem_append_right _ List.mem_cons_self
      rw [Sample.series_of_labels unlabelled] at brace
      exact (other.name.plain 123 brace).2.2.2.1 rfl
    | cons b more =>
      have space : isSpace b = true := blanks_space set.gap b (gap ▸ List.mem_cons_self)
      have nothing : set.text.takeWhile (fun d => !isSpace d) = [] := by
        rw [LabelSet.text_eq, gap, List.cons_append, List.takeWhile_cons_of_neg (by simp [space])]
      rw [nothing, List.append_nil] at taken
      rw [whole, taken] at series
      have brace : isSpace 123 = false := rfl
      rw [← List.append_cancel_left series, LabelSet.text_eq, List.append_assoc, split_spaces (blanks_space set.gap),
        List.cons_append, split_first brace, List.cons.injEq] at later
      rw [← later.1, refuses] at converted
      cases converted

theorem reading_sample (refuses : ∀ rest, float (123 :: rest) = none) (wanted : key = other.series)
    (read : reading float sample.text = some (key, value)) :
    key = sample.series ∧ (∀ c ∈ sample.series, isSpace c = false) ∧ sample.gap.1 ≠ [] ∧
      float sample.numeral.text = some value := by
  by_cases solid : ∀ c ∈ sample.series, isSpace c = false
  · by_cases apart : sample.gap.1 = []
    · exact absurd wanted (key_of_touching solid apart read)
    · rw [reading_of_solid solid apart] at read
      split at read
      next =>
        obtain ⟨number, converted, same⟩ := Option.map_eq_some_iff.mp read
        cases same
        exact ⟨rfl, solid, apart, converted⟩
      next => cases read
  · push Not at solid
    obtain ⟨c, member, space⟩ := solid
    exact absurd wanted (key_of_spaced refuses ⟨c, member, Bool.eq_true_of_not_eq_false space⟩ read)

theorem reading_comment {lead : Blanks} {text : Text}
    (read : reading float (lead.1 ++ 35 :: text) = some (key, value)) : key ≠ other.series := by
  rintro rfl
  obtain ⟨second, words, cut, _⟩ := reading_eq_some read
  have sign : isSpace 35 = false := rfl
  obtain ⟨more, series⟩ := series_eq other
  rw [split_spaces (blanks_space lead), split_first sign, series, List.cons.injEq, List.cons.injEq] at cut
  exact (other.name.plain other.name.first List.mem_cons_self).2.2.1 cut.1.1.symm

end Reading

/-! ## Line by line -/

/-- No line is read as two: only line feeds end lines. -/
def Unbroken (document : Document parseFloat) : Prop :=
  ∀ line ∈ document.lines, ∀ c ∈ line.text, isBoundary c = false

def Silent (float : Text → Option Value) (line : Text) : Prop :=
  line.head? = some 35 ∨
    ∀ name value words, split line = name :: value :: words → surfaced name = true → float value = none

/-- A sample that is wanted can be cut at its spaces, and nothing else looks like one. -/
def Legible (float : Text → Option Value) : Line parseFloat → Prop
  | .sample sample =>
    if surfaced sample.name.text then
      (∀ c ∈ sample.series, isSpace c = false) ∧ sample.gap.1 ≠ [] ∧ float sample.numeral.text = some sample.value
    else Silent float sample.text
  | line => Silent float line.text

theorem split_of_spaces {text : Text} (spaces : text.all isSpace = true) : split text = [] := by
  have all := @split_spaces text [] (List.all_eq_true.mp spaces)
  rw [List.append_nil] at all
  exact all

theorem silent_iff (text : Text) : Silent float text ↔ reading float text = none := by
  unfold Silent reading
  by_cases sign : text.head? = some 35
  · exact iff_of_true (.inl sign) (if_pos (.inl sign))
  by_cases spaces : text.all isSpace = true
  · rw [if_pos (.inr spaces), split_of_spaces spaces]
    exact iff_of_true (.inr nofun) rfl
  rw [if_neg (not_or.mpr ⟨sign, spaces⟩), or_iff_right sign]
  constructor
  · intro silent
    split
    next name value words cut =>
      split
      next wanted => rw [silent name value words cut wanted, Option.map_none]
      next => rfl
    next => rfl
  · intro nothing name value words cut wanted
    rw [cut] at nothing
    simp only [if_pos wanted, Option.map_eq_none_iff] at nothing
    exact nothing

theorem readings_of_unbroken (unbroken : Unbroken document) :
    readings float document.text = document.lines.filterMap fun line => reading float line.text := by
  have lines : splitlines document.text = document.lines.map Line.text := by
    have texts : document.text = (document.lines.map Line.text).flatMap fun text => text ++ [10] := by
      rw [List.flatMap_map]
      rfl
    rw [texts]
    refine splitlines_flatMap fun text member => ?_
    obtain ⟨line, listed, rfl⟩ := List.mem_map.mp member
    exact unbroken line listed
  rw [readings, lines, List.filterMap_map]
  rfl

theorem mem_samples {sample : Sample parseFloat} :
    sample ∈ document.samples ↔ Line.sample sample ∈ document.lines := by
  rw [Document.samples, List.mem_filterMap]
  constructor
  · rintro ⟨line, listed, given⟩
    cases line with
    | blank blanks => cases given
    | comment lead text single => cases given
    | sample other =>
      cases given
      exact listed
  · exact fun listed => ⟨_, listed, rfl⟩

theorem eq_of_series {sample other : Sample parseFloat} (first : sample ∈ document.samples)
    (second : other ∈ document.samples) (same : sample.series = other.series) : sample = other :=
  List.inj_on_of_nodup_map document.distinct first second same

variable {given : Line parseFloat} {other : Sample parseFloat} {key : Text} {value : Value}

theorem reading_line (refuses : ∀ rest, float (123 :: rest) = none)
    (read : reading float given.text = some (other.series, value)) :
    ∃ sample : Sample parseFloat, given = .sample sample ∧ other.series = sample.series ∧
      (∀ c ∈ sample.series, isSpace c = false) ∧ sample.gap.1 ≠ [] ∧ float sample.numeral.text = some value := by
  cases given with
  | blank blanks =>
    have spaces : blanks.1.all isSpace = true := List.all_eq_true.mpr (blanks_space blanks)
    obtain ⟨second, words, cut, _⟩ := reading_eq_some read
    rw [Line.text, split_of_spaces spaces] at cut
    cases cut
  | comment lead text single => exact (reading_comment read rfl).elim
  | sample sample => exact ⟨sample, rfl, reading_sample refuses rfl read⟩

/-- Of a legible line nothing is read but the sample that is wanted. -/
theorem read_of_legible (legible : Legible float given) (read : reading float given.text = some (key, value)) :
    ∃ sample : Sample parseFloat, given = .sample sample ∧ surfaced sample.name.text = true ∧ sample.series = key ∧
      sample.value = value := by
  have loud : ¬ Silent float given.text := fun silent => by
    rw [(silent_iff _).mp silent] at read
    cases read
  cases given with
  | blank blanks => exact absurd legible loud
  | comment lead text single => exact absurd legible loud
  | sample sample =>
    by_cases wanted : surfaced sample.name.text = true
    · rw [Legible, if_pos wanted] at legible
      obtain ⟨solid, apart, converted⟩ := legible
      rw [Line.text, reading_of_solid solid apart, if_pos (surfaced_series wanted), converted, Option.map_some] at read
      cases read
      exact ⟨sample, rfl, wanted, rfl, rfl⟩
    · rw [Legible, if_neg wanted] at legible
      exact absurd legible loud

theorem readsSelected_of_legible (unbroken : Unbroken document)
    (legible : ∀ line ∈ document.lines, Legible float line) : ReadsSelected float document := by
  have source {key : Text} {value : Value} (member : (key, value) ∈ readings float document.text) :
      ∃ sample ∈ document.samples, surfaced sample.name.text = true ∧ sample.series = key ∧ sample.value = value := by
    rw [readings_of_unbroken unbroken] at member
    obtain ⟨line, listed, read⟩ := List.mem_filterMap.mp member
    obtain ⟨sample, rfl, wanted, series, value⟩ := read_of_legible (legible line listed) read
    exact ⟨sample, mem_samples.mpr listed, wanted, series, value⟩
  refine ⟨fun entry member => ?_, fun sample member wanted => ?_⟩
  · obtain ⟨sample, listed, wanted, series, _⟩ := source member
    exact ⟨sample, listed, wanted, series⟩
  · have own := legible _ (mem_samples.mp member)
    rw [Legible, if_pos wanted] at own
    obtain ⟨solid, apart, converted⟩ := own
    have read : (sample.series, sample.value) ∈ readings float document.text := by
      rw [readings_of_unbroken unbroken]
      refine List.mem_filterMap.mpr ⟨_, mem_samples.mp member, ?_⟩
      rw [Line.text, reading_of_solid solid apart, if_pos (surfaced_series wanted), converted, Option.map_some]
    obtain ⟨value, last⟩ := exists_isLast read
    obtain ⟨other, listed, _, series, same⟩ := source last.mem
    rw [eq_of_series listed member series] at same
    exact same ▸ last

theorem legible_of_readsSelected (refuses : ∀ rest, float (123 :: rest) = none) (unbroken : Unbroken document)
    (selects : ReadsSelected float document) : ∀ line ∈ document.lines, Legible float line := by
  intro line listed
  have noted {line : Line parseFloat} (listed : line ∈ document.lines) {entry : Text × Value}
      (read : reading float line.text = some entry) : entry ∈ readings float document.text := by
    rw [readings_of_unbroken unbroken]
    exact List.mem_filterMap.mpr ⟨line, listed, read⟩
  -- An entry that is read from another line would be one too many.
  have silent (other : ∀ sample, line = .sample sample → surfaced sample.name.text ≠ true) :
      Silent float line.text := by
    rw [silent_iff]
    by_contra some_
    obtain ⟨⟨key, value⟩, read⟩ := Option.ne_none_iff_exists'.mp some_
    obtain ⟨wanted, member, counted, rfl⟩ := selects.1 _ (noted listed read)
    obtain ⟨sample, rfl, series, _⟩ := reading_line refuses read
    exact other sample rfl (eq_of_series member (mem_samples.mpr listed) series ▸ counted)
  cases line with
  | blank blanks => exact silent nofun
  | comment lead text single => exact silent nofun
  | sample sample =>
    by_cases wanted : surfaced sample.name.text = true
    · rw [Legible, if_pos wanted]
      have member := (selects.2 sample (mem_samples.mpr listed) wanted).mem
      rw [readings_of_unbroken unbroken] at member
      obtain ⟨line, present, read⟩ := List.mem_filterMap.mp member
      obtain ⟨other, rfl, series, whole⟩ := reading_line refuses read
      obtain rfl : sample = other := eq_of_series (mem_samples.mpr listed) (mem_samples.mpr present) series
      exact whole
    · rw [Legible, if_neg wanted]
      refine silent fun other same => ?_
      cases same
      exact wanted

/-- The text is parsed faithfully exactly if what is read in its pieces are the series that
are wanted. Where only line feeds end lines, every line tells by itself. -/
theorem parsePrometheusText_faithful_iff (parseFloat float : Text → Option Value) (document : Document parseFloat) :
    (Faithful float document ↔ ReadsSelected float document) ∧
    ((∀ rest, float (123 :: rest) = none) → Unbroken document →
      (Faithful float document ↔ ∀ line ∈ document.lines, Legible float line)) := by
  refine ⟨faithful_iff_readsSelected document, fun refuses unbroken => ?_⟩
  rw [faithful_iff_readsSelected]
  exact ⟨legible_of_readsSelected refuses unbroken, readsSelected_of_legible unbroken⟩

/-! ## Documents of one sample -/

def digitsOnly (text : Text) : Option Nat := if text.all isDigit && text != [] then some (digitsValue text) else none

def noBlanks : Blanks := ⟨[], nofun⟩

def oneBlank : Blanks := ⟨[32], by decide⟩

def five : Numeral := ⟨[53], by decide, by decide⟩

def oneLabel (name : Name false) (value : String) : LabelSet :=
  ⟨noBlanks, .some ⟨noBlanks, name, noBlanks, noBlanks, Text.ofString value, noBlanks⟩ [] none⟩

def sampleOf (name : Name true) (labels : LabelSet) : Sample digitsOnly where
  lead := noBlanks
  name := name
  labels := some labels
  gap := oneBlank
  numeral := five
  value := 5
  timestamp := none
  trail := noBlanks
  reads := rfl
  apart := nofun

def documentOf (sample : Sample digitsOnly) : Document digitsOnly := ⟨[.sample sample], List.nodup_singleton _⟩

def httpRequestsTotal : Name true := ⟨104, Text.ofString "ttp_requests_total", by decide, by decide⟩

def pathLabel : Name false := ⟨112, Text.ofString "ath", by decide, by decide⟩

def upMetric : Name true := ⟨117, [112], by decide, by decide⟩

example : (documentOf (sampleOf httpRequestsTotal (oneLabel pathLabel "a b"))).text =
    Text.ofString "http_requests_total\x7bpath=\"a b\"\x7d 5\n" := by decide

/-- A path without spaces is read, with whatever else its value contains. -/
theorem faithful_without_spaces :
    Faithful digitsOnly (documentOf (sampleOf httpRequestsTotal (oneLabel pathLabel "a\x7d\"b"))) := by
  have refuses (rest : Text) : digitsOnly (123 :: rest) = none := rfl
  refine ((parsePrometheusText_faithful_iff _ _ _).2 refuses ?_).mpr ?_
  · intro line member
    obtain rfl := List.mem_singleton.mp member
    decide
  · intro line member
    obtain rfl := List.mem_singleton.mp member
    rw [Legible, if_pos (by decide)]
    exact ⟨by decide, by decide, rfl⟩

/-- A label value with a space loses its series, and one that mentions a counter adds one. -/
theorem not_faithful_with_labels :
    (¬ Faithful digitsOnly (documentOf (sampleOf httpRequestsTotal (oneLabel pathLabel "a b")))) ∧
    ¬ Faithful digitsOnly (documentOf (sampleOf upMetric (oneLabel pathLabel "http_requests_total"))) := by
  refine ⟨fun same => ?_, fun same => ?_⟩
  · exact absurd same.length_eq (by decide)
  · exact absurd same.length_eq (by decide)

end DataPipeline.Dashboard
