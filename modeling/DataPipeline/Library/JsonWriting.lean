import DataPipeline.Library.Json

/-! The writer of JSON with its default separators, and that the scanner reads
back every value it writes.

Floats are written as the caller says and are left out of the round trip.
-/

set_option autoImplicit false

namespace Json

open Encoding

mutual

/-- `json.dumps`; `repr` writes a float. -/
def dumps (repr : Double → Text) : Json → Text
  | .null => Text.ofString "null"
  | .bool value => Text.ofString (if value then "true" else "false")
  | .int value => dumpsInt value
  | .float value => repr value
  | .str value => dumpsString value
  | .list items => 91 :: List.intercalate [44, 32] (dumpsItems repr items) ++ [93]
  | .dict entries => dumpsObjectSpaced (dumpsEntries repr entries)

def dumpsItems (repr : Double → Text) : List Json → List Text
  | [] => []
  | item :: rest => dumps repr item :: dumpsItems repr rest

def dumpsEntries (repr : Double → Text) : List (Text × Json) → List (Text × Text)
  | [] => []
  | (key, value) :: rest => (key, dumps repr value) :: dumpsEntries repr rest

end

/-- A text whose escapes are read one by one: no high surrogate stands right
before a low one. -/
structure Unpaired (text : Text) : Prop where
  inRange : ∀ c ∈ text, c < 0x110000
  apart : text.IsChain fun c d => isHighSurrogate c = true → isLowSurrogate d = false

mutual

/-- The value is written in such a way that it can be read: its numbers are
short integers, and no key of an object comes twice. -/
def Writable : Json → Prop
  | .null | .bool _ => True
  | .int value => (decimal value.natAbs).length ≤ 4300
  | .float _ => False
  | .str value => Unpaired value
  | .list items => WritableItems items
  | .dict entries => (entries.map (·.1)).Nodup ∧ WritableEntries entries

def WritableItems : List Json → Prop
  | [] => True
  | item :: rest => Writable item ∧ WritableItems rest

def WritableEntries : List (Text × Json) → Prop
  | [] => True
  | (key, value) :: rest => Unpaired key ∧ Writable value ∧ WritableEntries rest

end

/-- The second object's entries put over those of the first, as `{**first, **second}`. -/
def merge (first second : List (Text × Json)) : List (Text × Json) :=
  second.foldl (fun entries entry => assign entries entry.1 entry.2) first

/-! ## Objects -/

theorem writableEntries_iff {entries : List (Text × Json)} :
    WritableEntries entries ↔ ∀ entry ∈ entries, Unpaired entry.1 ∧ Writable entry.2 := by
  induction entries with
  | nil => simp [WritableEntries]
  | cons entry entries ih =>
    rw [WritableEntries, ih, List.forall_mem_cons, and_assoc]

theorem nestingEntries_le_iff {entries : List (Text × Json)} {depth : Nat} :
    nestingEntries entries ≤ depth ↔ ∀ entry ∈ entries, entry.2.nesting ≤ depth := by
  induction entries with
  | nil => simp [nestingEntries]
  | cons entry entries ih =>
    rw [nestingEntries, max_le_iff, ih, List.forall_mem_cons]

theorem mem_assign {entries : List (Text × Json)} {key : Text} {value : Json} {entry : Text × Json}
    (member : entry ∈ assign entries key value) : entry = (key, value) ∨ entry ∈ entries := by
  unfold assign at member
  split at member
  · obtain ⟨old, present, same⟩ := List.mem_map.mp member
    split at same
    · exact .inl same.symm
    · exact .inr (same ▸ present)
  · rcases List.mem_append.mp member with present | new
    · exact .inr present
    · exact .inl (List.mem_singleton.mp new)

theorem keys_assign (entries : List (Text × Json)) (key : Text) (value : Json) :
    (assign entries key value).map (·.1) =
      if (entries.lookup key).isSome then entries.map (·.1) else entries.map (·.1) ++ [key] := by
  unfold assign
  split
  · rw [List.map_map]
    refine List.map_congr_left fun entry _ => ?_
    rw [Function.comp_apply]
    split
    next same => exact same.symm
    next => rfl
  · simp

theorem nodup_assign {entries : List (Text × Json)} (distinct : (entries.map (·.1)).Nodup) (key : Text)
    (value : Json) : ((assign entries key value).map (·.1)).Nodup := by
  rw [keys_assign]
  split
  next => exact distinct
  next missing =>
    rw [Bool.not_eq_true, Option.isSome_eq_false_iff, Option.isNone_iff_eq_none, List.lookup_eq_none_iff] at missing
    refine distinct.append (List.nodup_singleton key) ?_
    rintro other member same
    obtain ⟨entry, present, rfl⟩ := List.mem_map.mp member
    exact absurd (missing entry present) (by simp [List.mem_singleton.mp same])

theorem lookup_map_assigned (entries : List (Text × Json)) (key : Text) (value : Json) (other : Text) :
    (entries.map fun entry => if entry.1 = key then (key, value) else entry).lookup other =
      if other = key then (entries.lookup key).map fun _ => value else entries.lookup other := by
  induction entries with
  | nil => simp
  | cons entry entries ih =>
    obtain ⟨name, old⟩ := entry
    rw [List.map_cons, List.lookup_cons, List.lookup_cons, List.lookup_cons]
    by_cases named : name = key <;> by_cases asked : other = key
    · simp [named, asked]
    · simp [named, asked, ih, beq_false_of_ne]
    · rw [asked, if_pos rfl] at ih ⊢
      simp [named, ih, beq_false_of_ne (Ne.symm named)]
    · simp only [named, asked, ih, ↓reduceIte]

theorem lookup_assign (entries : List (Text × Json)) (key : Text) (value : Json) (other : Text) :
    (assign entries key value).lookup other = if other = key then some value else entries.lookup other := by
  unfold assign
  split
  next present =>
    rw [lookup_map_assigned]
    split
    · obtain ⟨old, found⟩ := Option.isSome_iff_exists.mp present
      rw [found]
      rfl
    · rfl
  next missing =>
    rw [Bool.not_eq_true, Option.isSome_eq_false_iff, Option.isNone_iff_eq_none] at missing
    rw [List.lookup_append]
    split
    next same => simp [same, missing]
    next different => simp [List.lookup_cons, beq_false_of_ne different]

theorem lookup_merge (first : List (Text × Json)) {second : List (Text × Json)}
    (distinct : (second.map (·.1)).Nodup) (key : Text) :
    (merge first second).lookup key = (second.lookup key).or (first.lookup key) := by
  induction second generalizing first with
  | nil => rfl
  | cons entry second ih =>
    obtain ⟨name, value⟩ := entry
    rw [List.map_cons, List.nodup_cons] at distinct
    have later : merge first ((name, value) :: second) = merge (assign first name value) second := rfl
    rw [later, ih _ distinct.2, lookup_assign, List.lookup_cons]
    by_cases same : key = name
    · have missing : second.lookup name = none := by
        rw [List.lookup_eq_none_iff]
        intro entry member
        rw [bne_iff_ne]
        rintro rfl
        exact distinct.1 (List.mem_map.mpr ⟨entry, member, rfl⟩)
      simp [same, missing]
    · simp [same, beq_false_of_ne same]

theorem nodup_merge {first : List (Text × Json)} (distinct : (first.map (·.1)).Nodup) (second : List (Text × Json)) :
    ((merge first second).map (·.1)).Nodup := by
  induction second generalizing first with
  | nil => exact distinct
  | cons entry second ih => exact ih (nodup_assign distinct entry.1 entry.2)

theorem mem_merge {first second : List (Text × Json)} {entry : Text × Json} (member : entry ∈ merge first second) :
    entry ∈ first ∨ entry ∈ second := by
  induction second generalizing first with
  | nil => exact .inl member
  | cons next second ih =>
    rcases ih member with assigned | later
    · exact (mem_assign assigned).elim (fun same => .inr (same ▸ List.mem_cons_self)) .inl
    · exact .inr (List.mem_cons_of_mem _ later)

theorem nestingEntries_merge (first second : List (Text × Json)) :
    nestingEntries (merge first second) ≤ max (nestingEntries first) (nestingEntries second) := by
  rw [nestingEntries_le_iff]
  intro entry member
  rcases mem_merge member with old | new
  · exact le_max_of_le_left (nestingEntries_le_iff.mp le_rfl entry old)
  · exact le_max_of_le_right (nestingEntries_le_iff.mp le_rfl entry new)

/-! ## Strings -/

theorem hexDigit_digit {d : Nat} (small : d < 16) : hexDigit (if d < 10 then 48 + d else 87 + d) = some d := by
  unfold hexDigit
  split_ifs <;> first | omega | (congr 1; omega)

theorem hexText_four (c : Nat) : ∃ a b d e, hexText 4 c = [a, b, d, e] ∧ hex4 a b d e = some (c % 0x10000) := by
  have digit : ∀ place, hexDigit (if c / 16 ^ place % 16 < 10 then 48 + c / 16 ^ place % 16
      else 87 + c / 16 ^ place % 16) = some (c / 16 ^ place % 16) :=
    fun place => hexDigit_digit (Nat.mod_lt _ (by omega))
  refine ⟨_, _, _, _, rfl, ?_⟩
  simp only [hex4, digit, bind, Option.bind, pure]
  congr 1
  omega

/-- What follows is no escape of a low surrogate, and no broken escape. -/
def NoLowEscape (text : Text) : Prop :=
  ∀ a b c d rest, text = 92 :: 117 :: a :: b :: c :: d :: rest →
    ∃ code, hex4 a b c d = some code ∧ isLowSurrogate code = false

theorem scanString_unicode {a b c d code : Nat} {rest : Text} (escaped : hex4 a b c d = some code)
    (single : isHighSurrogate code = true → NoLowEscape rest) :
    scanString (92 :: 117 :: a :: b :: c :: d :: rest) =
      (scanString rest).map fun (tail, left) => (code :: tail, left) := by
  rw [scanString.eq_def]
  simp only [escaped]
  split
  next e f g h after =>
    split
    next high =>
      obtain ⟨low, follows, notLow⟩ := single high e f g h after rfl
      simp [follows, notLow]
    next => rfl
  next => rfl

theorem scanString_pair {a b c d e f g h code low : Nat} (rest : Text) (first : hex4 a b c d = some code)
    (high : isHighSurrogate code = true) (second : hex4 e f g h = some low) (isLow : isLowSurrogate low = true) :
    scanString (92 :: 117 :: a :: b :: c :: d :: 92 :: 117 :: e :: f :: g :: h :: rest) =
      (scanString rest).map fun (tail, left) =>
        ((0x10000 + 1024 * (code - 0xD800) + (low - 0xDC00)) :: tail, left) := by
  rw [scanString.eq_def]
  simp [first, high, second, isLow]

theorem scanString_escape {c : Nat} (inRange : c < 0x110000) (rest : Text)
    (single : isHighSurrogate c = true → NoLowEscape rest) :
    scanString (escape c ++ rest) = (scanString rest).map fun (tail, left) => (c :: tail, left) := by
  unfold escape
  split
  case h_8 quote slash _ _ _ _ _ =>
    split_ifs with plain basic
    · exact scanString_cons rest plain.1 quote slash
    · obtain ⟨a, b, d, e, text, code⟩ := hexText_four c
      rw [Nat.mod_eq_of_lt basic] at code
      simpa only [text, List.cons_append, List.nil_append] using scanString_unicode code single
    · obtain ⟨a, b, d, e, high, highCode⟩ := hexText_four (0xD800 + (c - 0x10000) / 1024)
      obtain ⟨f, g, h, i, low, lowCode⟩ := hexText_four (0xDC00 + (c - 0x10000) % 1024)
      rw [Nat.mod_eq_of_lt (by omega)] at highCode lowCode
      have pair := scanString_pair rest highCode (by simp [isHighSurrogate]; omega) lowCode
        (by simp [isLowSurrogate]; omega)
      have whole : 0x10000 + 1024 * (0xD800 + (c - 0x10000) / 1024 - 0xD800) +
          (0xDC00 + (c - 0x10000) % 1024 - 0xDC00) = c := by omega
      rw [whole] at pair
      simpa only [high, low, List.cons_append, List.nil_append] using pair
  all_goals rfl

theorem noLowEscape_escape {c : Nat} (inRange : c < 0x110000) (notLow : isLowSurrogate c = false) (rest : Text) :
    NoLowEscape (escape c ++ rest) := by
  intro a b d e after starts
  unfold escape at starts
  split at starts
  case h_8 quote slash _ _ _ _ _ =>
    split_ifs at starts with plain basic
    · exact absurd (List.cons.inj starts).1 slash
    · obtain ⟨a', b', d', e', text, code⟩ := hexText_four c
      rw [Nat.mod_eq_of_lt basic] at code
      simp only [text, List.cons_append, List.nil_append, List.cons.injEq, true_and] at starts
      obtain ⟨rfl, rfl, rfl, rfl, -⟩ := starts
      exact ⟨c, code, notLow⟩
    · obtain ⟨a', b', d', e', text, code⟩ := hexText_four (0xD800 + (c - 0x10000) / 1024)
      simp only [text, List.cons_append, List.nil_append, List.cons.injEq, true_and] at starts
      obtain ⟨rfl, rfl, rfl, rfl, -⟩ := starts
      rw [Nat.mod_eq_of_lt (by omega)] at code
      exact ⟨_, code, by simp [isLowSurrogate]; omega⟩
  all_goals simp at starts

theorem scanString_written {text : Text} (unpaired : Unpaired text) (rest : Text) :
    scanString (text.flatMap escape ++ 34 :: rest) = .ok (text, rest) := by
  induction text with
  | nil => rfl
  | cons c text ih =>
    have tail : Unpaired text :=
      ⟨fun d member => unpaired.inRange d (List.mem_cons_of_mem _ member), unpaired.apart.tail⟩
    have single : isHighSurrogate c = true → NoLowEscape (text.flatMap escape ++ 34 :: rest) := by
      intro high
      cases text with
      | nil => intro a b d e after starts; simp at starts
      | cons d text =>
        have notLow := (List.isChain_cons_cons.mp unpaired.apart).1 high
        rw [List.flatMap_cons, List.append_assoc]
        exact noLowEscape_escape (unpaired.inRange d (by simp)) notLow _
    rw [List.flatMap_cons, List.append_assoc, scanString_escape (unpaired.inRange c List.mem_cons_self) _ single,
      ih tail]
    rfl

/-! ## Values -/

theorem dumpsInt_follows {n : Int} (short : (decimal n.natAbs).length ≤ 4300) {rest : Text} (follows : Follows rest)
    (fuel depth : Nat) : scanValue (fuel + 1) depth (dumpsInt n ++ rest) = .ok (.int n, rest) := by
  have number := scanNumber_dumpsInt short follows
  obtain ⟨d, ds, shape, first⟩ := dumpsInt_cons n
  rw [shape, List.cons_append] at number ⊢
  exact (scanValue_number _ first fuel depth).trans number

theorem dumps_cons (repr : Double → Text) {value : Json} (writable : Writable value) :
    ∃ c text, dumps repr value = c :: text ∧ isSpace c = false ∧ c ≠ 93 := by
  cases value with
  | null => exact ⟨_, _, rfl, by decide⟩
  | bool value => cases value <;> exact ⟨_, _, rfl, by decide⟩
  | int value =>
    obtain ⟨d, ds, shape, first⟩ := dumpsInt_cons value
    refine ⟨d, ds, shape, ?_, by omega⟩
    simp [isSpace]
    omega
  | float value => exact writable.elim
  | str value => exact ⟨_, _, rfl, by decide⟩
  | list items => exact ⟨_, _, rfl, by decide⟩
  | dict entries => exact ⟨_, _, rfl, by decide⟩

theorem skipSpace_dumps (repr : Double → Text) {value : Json} (writable : Writable value) (rest : Text) :
    skipSpace (dumps repr value ++ rest) = dumps repr value ++ rest := by
  obtain ⟨c, text, shape, solid, -⟩ := dumps_cons repr writable
  rw [shape, List.cons_append, skipSpace_cons _ solid]

theorem skipSpace_space {text : Text} : skipSpace (32 :: text) = skipSpace text := by
  simp [skipSpace, isSpace]

theorem scanValue_constant (repr : Double → Text) {value : Json} {name : String}
    (written : dumps repr value = Text.ofString name)
    (found : ∀ rest, ∃ c tail, Text.ofString name ++ rest = c :: tail ∧ c ≠ 34 ∧ c ≠ 123 ∧ c ≠ 91 ∧
      (constants.find? fun named => (Text.ofString named.1).isPrefixOf (c :: tail)) = some (name, value))
    (fuel depth : Nat) (rest : Text) :
    scanValue (fuel + 1) depth (dumps repr value ++ rest) = .ok (value, rest) := by
  obtain ⟨c, tail, shape, notString, notObject, notArray, found⟩ := found rest
  have left : (c :: tail).drop name.length = rest := by
    rw [← shape]
    exact List.drop_left' (by rw [Text.ofString, List.length_map, String.length_toList])
  rw [written, shape]
  simp only [scanValue, notString, notObject, notArray, ↓reduceIte, found, left]

theorem scanString_dumps {text : Text} (unpaired : Unpaired text) (rest : Text) :
    ∃ body, dumpsString text ++ rest = 34 :: body ∧ scanString body = .ok (text, rest) := by
  refine ⟨text.flatMap escape ++ 34 :: rest, ?_, scanString_written unpaired rest⟩
  simp [dumpsString]

theorem intercalate_dumps (repr : Double → Text) {item : Json} (writable : Writable item) (items : List Json) :
    ∃ c text, List.intercalate [44, 32] (dumpsItems repr (item :: items)) = c :: text ∧ isSpace c = false ∧
      c ≠ 93 := by
  obtain ⟨c, text, shape, solid⟩ := dumps_cons repr writable
  cases items with
  | nil => exact ⟨c, text, by simp [dumpsItems, shape], solid⟩
  | cons next items =>
    rw [dumpsItems, dumpsItems, List.intercalate_cons_cons, shape, List.cons_append, List.cons_append]
    exact ⟨c, _, rfl, solid⟩

def writtenEntries (repr : Double → Text) (entries : List (Text × Json)) : Text :=
  List.intercalate [44, 32] ((dumpsEntries repr entries).map fun (key, value) => dumpsString key ++ 58 :: 32 :: value)

theorem dumps_dict (repr : Double → Text) (entries : List (Text × Json)) :
    dumps repr (.dict entries) = 123 :: writtenEntries repr entries ++ [125] := rfl

theorem writtenEntries_singleton (repr : Double → Text) (key : Text) (value : Json) :
    writtenEntries repr [(key, value)] = dumpsString key ++ 58 :: 32 :: dumps repr value := by
  simp [writtenEntries, dumpsEntries]

theorem writtenEntries_cons_cons (repr : Double → Text) (key : Text) (value : Json) (next : Text × Json)
    (entries : List (Text × Json)) : writtenEntries repr ((key, value) :: next :: entries) =
      dumpsString key ++ 58 :: 32 :: dumps repr value ++ [44, 32] ++ writtenEntries repr (next :: entries) := by
  simp only [writtenEntries, dumpsEntries, List.map_cons, List.intercalate_cons_cons, List.append_assoc]

theorem writtenEntries_cons (repr : Double → Text) (key : Text) (value : Json) (entries : List (Text × Json)) :
    ∃ text, writtenEntries repr ((key, value) :: entries) = 34 :: text := by
  cases entries with
  | nil => exact ⟨_, writtenEntries_singleton repr key value⟩
  | cons next entries => exact ⟨_, writtenEntries_cons_cons repr key value next entries⟩

theorem fresh_of_nodup {before : List (Text × Json)} {key : Text} {keys : List Text}
    (distinct : (before.map (·.1) ++ key :: keys).Nodup) : ∀ old ∈ before, old.1 ≠ key := by
  rintro old member rfl
  exact (List.nodup_append.mp distinct).2.2 old.1 (List.mem_map_of_mem member) old.1 List.mem_cons_self rfl

mutual

/-- The fuel goes down in each call, and the text that is left with it. -/
theorem scanValue_dumps (repr : Double → Text) : ∀ (value : Json), Writable value → ∀ (fuel depth : Nat)
    (rest : Text), Follows rest → value.nesting ≤ depth → 2 * (dumps repr value).length ≤ fuel →
    scanValue fuel depth (dumps repr value ++ rest) = .ok (value, rest)
  | value, writable, 0, _, _, _, _, enough => by
    obtain ⟨c, text, shape, -⟩ := dumps_cons repr writable
    simp [shape] at enough
  | .null, _, fuel + 1, depth, rest, _, _, _ =>
    scanValue_constant repr rfl (fun _ => ⟨_, _, rfl, by decide, by decide, by decide, rfl⟩) fuel depth rest
  | .bool true, _, fuel + 1, depth, rest, _, _, _ =>
    scanValue_constant repr rfl (fun _ => ⟨_, _, rfl, by decide, by decide, by decide, rfl⟩) fuel depth rest
  | .bool false, _, fuel + 1, depth, rest, _, _, _ =>
    scanValue_constant repr rfl (fun _ => ⟨_, _, rfl, by decide, by decide, by decide, rfl⟩) fuel depth rest
  | .int value, writable, fuel + 1, depth, rest, follows, _, _ => dumpsInt_follows writable follows fuel depth
  | .float value, writable, _, _, _, _, _, _ => writable.elim
  | .str value, writable, fuel + 1, depth, rest, _, _, _ => by
    obtain ⟨body, shape, scanned⟩ := scanString_dumps writable rest
    simp only [dumps, shape, scanValue, ↓reduceIte, scanned]
    rfl
  | .list _, _, _, 0, _, _, shallow, _ | .dict _, _, _, 0, _, _, shallow, _ => by simp [nesting] at shallow
  | .list [], _, fuel + 1, depth + 1, rest, _, _, _ => rfl
  | .dict [], _, fuel + 1, depth + 1, rest, _, _, _ => rfl
  | .list (item :: items), ⟨first, others⟩, fuel + 1, depth + 1, rest, _, shallow, enough => by
    simp only [dumps, List.length_append, List.length_cons, List.length_nil] at enough
    have scanned := scanItems_dumps repr item items first others fuel depth [] rest (by simpa [nesting] using shallow)
      (by omega)
    obtain ⟨c, text, shape, solid, notEmpty⟩ := intercalate_dumps repr first items
    rw [shape] at scanned
    rw [dumps, shape]
    simp only [List.append_assoc, List.cons_append, List.nil_append, scanValue, Nat.reduceEqDiff, ↓reduceIte,
      skipSpace_cons _ solid, List.head?_cons, Option.some.injEq, notEmpty]
    simpa using scanned
  | .dict ((key, value) :: entries), ⟨distinct, unpaired, first, others⟩, fuel + 1, depth + 1, rest, _, shallow,
      enough => by
    rw [dumps_dict] at enough ⊢
    simp only [List.length_append, List.length_cons, List.length_nil] at enough
    have scanned := scanEntries_dumps repr key value entries unpaired first others fuel depth [] rest
      (by simpa using distinct) (by simpa [nesting] using shallow) (by omega)
    obtain ⟨text, shape⟩ := writtenEntries_cons repr key value entries
    rw [shape] at scanned ⊢
    simp only [List.append_assoc, List.cons_append, List.nil_append, scanValue, Nat.reduceEqDiff, ↓reduceIte,
      skipSpace_cons (c := 34) _ rfl, List.head?_cons, Option.some.injEq]
    simpa using scanned

theorem scanItems_dumps (repr : Double → Text) : ∀ (item : Json) (items : List Json), Writable item →
    WritableItems items → ∀ (fuel depth : Nat) (before : List Json) (rest : Text),
    nestingItems (item :: items) ≤ depth →
    2 * (List.intercalate [44, 32] (dumpsItems repr (item :: items))).length + 1 ≤ fuel →
    scanItems fuel depth before (List.intercalate [44, 32] (dumpsItems repr (item :: items)) ++ 93 :: rest) =
      .ok (.list (before ++ item :: items), rest)
  | item, [], writable, _, fuel + 1, depth, before, rest, shallow, enough => by
    have scanned := scanValue_dumps repr item writable fuel depth (93 :: rest) (by rintro c ⟨⟩; simp)
      (by simpa [nestingItems] using shallow) (by simpa [dumpsItems] using enough)
    simp only [dumpsItems, List.intercalate_singleton, scanItems, scanned, bind, Except.bind,
      skipSpace_cons (c := 93) _ rfl]
  | item, next :: items, writable, ⟨first, others⟩, fuel + 1, depth, before, rest, shallow, enough => by
    rw [nestingItems, max_le_iff] at shallow
    rw [dumpsItems, dumpsItems, List.intercalate_cons_cons, ← dumpsItems] at enough ⊢
    simp only [List.length_append, List.length_cons, List.length_nil] at enough
    have scanned := scanValue_dumps repr item writable fuel depth
      (44 :: 32 :: (List.intercalate [44, 32] (dumpsItems repr (next :: items)) ++ 93 :: rest))
      (by rintro c ⟨⟩; simp) shallow.1 (by omega)
    have more := scanItems_dumps repr next items first others fuel depth (before ++ [item]) rest shallow.2 (by omega)
    obtain ⟨c, text, shape, solid⟩ := intercalate_dumps repr first items
    rw [shape, List.cons_append] at scanned more
    simp only [shape, List.append_assoc, List.cons_append, List.nil_append, scanItems, scanned, bind, Except.bind,
      skipSpace_cons (c := 44) _ rfl, skipSpace_space, skipSpace_cons _ solid.1, more]

theorem scanEntries_dumps (repr : Double → Text) : ∀ (key : Text) (value : Json) (entries : List (Text × Json)),
    Unpaired key → Writable value → WritableEntries entries → ∀ (fuel depth : Nat) (before : List (Text × Json))
    (rest : Text), (before.map (·.1) ++ key :: entries.map (·.1)).Nodup →
    nestingEntries ((key, value) :: entries) ≤ depth →
    2 * (writtenEntries repr ((key, value) :: entries)).length + 1 ≤ fuel →
    scanEntries fuel depth before (writtenEntries repr ((key, value) :: entries) ++ 125 :: rest) =
      .ok (.dict (before ++ (key, value) :: entries), rest)
  | key, value, [], unpaired, writable, _, fuel + 1, depth, before, rest, distinct, shallow, enough => by
    obtain ⟨body, shape, key'⟩ := scanString_dumps unpaired (58 :: 32 :: (dumps repr value ++ 125 :: rest))
    rw [writtenEntries_singleton] at enough ⊢
    simp only [List.length_append, List.length_cons] at enough
    have scanned := scanValue_dumps repr value writable fuel depth (125 :: rest) (by rintro c ⟨⟩; simp)
      (by simpa [nestingEntries] using shallow) (by omega)
    simp only [List.append_assoc, List.cons_append, shape, scanEntries, key', bind, Except.bind,
      skipSpace_cons (c := 58) _ rfl, skipSpace_space, skipSpace_dumps repr writable, scanned,
      skipSpace_cons (c := 125) _ rfl, assign_new value (fresh_of_nodup distinct)]
  | key, value, (nextKey, next) :: entries, unpaired, writable, ⟨nextUnpaired, first, others⟩, fuel + 1, depth,
      before, rest, distinct, shallow, enough => by
    rw [nestingEntries, max_le_iff] at shallow
    rw [writtenEntries_cons_cons] at enough ⊢
    simp only [List.length_append, List.length_cons, List.length_nil] at enough
    obtain ⟨body, shape, key'⟩ := scanString_dumps unpaired (58 :: 32 :: (dumps repr value ++
      44 :: 32 :: (writtenEntries repr ((nextKey, next) :: entries) ++ 125 :: rest)))
    have scanned := scanValue_dumps repr value writable fuel depth
      (44 :: 32 :: (writtenEntries repr ((nextKey, next) :: entries) ++ 125 :: rest))
      (by rintro c ⟨⟩; simp) shallow.1 (by omega)
    have more := scanEntries_dumps repr nextKey next entries nextUnpaired first others fuel depth
      (before ++ [(key, value)]) rest (by simpa using distinct) shallow.2 (by omega)
    obtain ⟨text, opening⟩ := writtenEntries_cons repr nextKey next entries
    rw [opening, List.cons_append] at scanned more shape key'
    simp only [opening, List.append_assoc, List.cons_append, List.nil_append, shape, scanEntries, key', bind, Except.bind,
      skipSpace_cons (c := 58) _ rfl, skipSpace_space, skipSpace_dumps repr writable, scanned,
      skipSpace_cons (c := 44) _ rfl, skipSpace_cons (c := 34) _ rfl, assign_new value (fresh_of_nodup distinct), more]

end

/-! ## Bytes -/

mutual

theorem dumps_ascii (repr : Double → Text) : ∀ {value : Json}, Writable value → IsAscii (dumps repr value)
  | .null, _ => by simp only [dumps, IsAscii]; decide
  | .bool true, _ => by simp only [dumps, IsAscii]; decide
  | .bool false, _ => by simp only [dumps, IsAscii]; decide
  | .int value, _ => dumpsInt_ascii value
  | .float _, writable => writable.elim
  | .str value, _ => dumpsString_ascii value
  | .list items, writable => by
    have comma : IsAscii [44, 32] := by unfold IsAscii; decide
    have close : IsAscii [93] := by unfold IsAscii; decide
    exact List.forall_mem_cons.mpr
      ⟨by decide, (IsAscii.intercalate comma (dumpsItems_ascii repr writable)).append close⟩
  | .dict entries, writable => dumpsObjectSpaced_ascii (dumpsEntries_ascii repr writable.2)

theorem dumpsItems_ascii (repr : Double → Text) : ∀ {items : List Json}, WritableItems items →
    ∀ part ∈ dumpsItems repr items, IsAscii part
  | [], _ => by simp [dumpsItems]
  | item :: items, ⟨writable, others⟩ =>
    List.forall_mem_cons.mpr ⟨dumps_ascii repr writable, dumpsItems_ascii repr others⟩

theorem dumpsEntries_ascii (repr : Double → Text) : ∀ {entries : List (Text × Json)}, WritableEntries entries →
    ∀ entry ∈ dumpsEntries repr entries, IsAscii entry.2
  | [], _ => by simp [dumpsEntries]
  | (key, value) :: entries, ⟨_, writable, others⟩ =>
    List.forall_mem_cons.mpr ⟨dumps_ascii repr writable, dumpsEntries_ascii repr others⟩

end

theorem decodeDetected_brace {second : UInt8} (next : second = 34 ∨ second = 125) (rest : Bytes) :
    decodeDetected (123 :: second :: rest) = decodeUtf8 true (123 :: second :: rest) := by
  rcases next with rfl | rfl <;>
  · match rest with
    | [] => rfl
    | [c] => rfl
    | c :: d :: rest => rfl

theorem dumps_dict_cons (repr : Double → Text) (entries : List (Text × Json)) :
    ∃ second rest, dumps repr (.dict entries) = 123 :: second :: rest ∧ (second = 34 ∨ second = 125) := by
  cases entries with
  | nil => exact ⟨125, [], rfl, .inr rfl⟩
  | cons entry entries =>
    obtain ⟨text, shape⟩ := writtenEntries_cons repr entry.1 entry.2 entries
    exact ⟨34, text ++ [125], by rw [dumps_dict, shape]; rfl, .inl rfl⟩

/-! ## The round trip -/

/-- A value is read back from the text it is written as, if the stack has room
for its containers. -/
theorem loads_dumps (repr : Double → Text) {value : Json} (writable : Writable value) {depth : Nat}
    (shallow : value.nesting ≤ depth) : loads depth (dumps repr value) = .ok value := by
  have scanned := scanValue_dumps repr value writable (2 * (dumps repr value).length + 2) depth []
    (by rintro c ⟨⟩) shallow (by omega)
  have solid := skipSpace_dumps repr writable []
  rw [List.append_nil] at scanned solid
  have ascii := dumps_ascii repr writable
  obtain ⟨c, text, shape, -⟩ := dumps_cons repr writable
  have noMark : (dumps repr value).head? ≠ some 0xFEFF := by
    rw [shape] at ascii ⊢
    have small := ascii c List.mem_cons_self
    simp only [List.head?_cons, ne_eq, Option.some.injEq]
    omega
  simp only [loads, noMark, ↓reduceIte, solid, scanned, bind, Except.bind]
  rfl

theorem loadsBytes_dumps (repr : Double → Text) {entries : List (Text × Json)} (writable : Writable (.dict entries))
    {depth : Nat} (shallow : (dict entries).nesting ≤ depth) :
    ∃ bytes, encodeUtf8 (dumps repr (.dict entries)) = some bytes ∧ loadsBytes depth bytes = .ok (.dict entries) := by
  have ascii := dumps_ascii repr writable
  refine ⟨_, encodeUtf8_ascii ascii, ?_⟩
  have detected : decodeDetected ((dumps repr (.dict entries)).map Nat.toUInt8) = some (dumps repr (.dict entries)) := by
    rw [← @decodeUtf8_ascii true _ ascii]
    obtain ⟨second, rest, shape, next⟩ := dumps_dict_cons repr entries
    rw [shape, List.map_cons, List.map_cons]
    exact decodeDetected_brace (next.imp (congrArg Nat.toUInt8) (congrArg Nat.toUInt8)) _
  simp only [loadsBytes, detected]
  exact loads_dumps repr writable shallow

end Json
