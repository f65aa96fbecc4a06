import DataPipeline.Ingestor.ClientIp
import DataPipeline.Library.Casing

/-! The roles of `ingestor/auth.py`: how they are read from a session or from
the claims of a token, and what a guard requires of them.

A set of roles is a list whose order and repetitions play no part.
-/

set_option autoImplicit false

namespace DataPipeline.Ingestor.Roles

/-- What a field with roles may hold: a string, something that can be iterated,
with each item as `str` writes it, or anything else. -/
inductive RawRoles where
  | text (value : String)
  | items (values : List String)
  | other
  deriving DecidableEq

def strip (text : String) : String := String.ofList (RecordsV2.strip text.toList)

section

variable (isFinal : List Char → List Char → Bool)

/-- `role.strip().lower()` -/
def normalized (role : String) : String := Casing.lower isFinal (strip role)

def normalizeRoles (rawRoles : Option RawRoles) : List String :=
  match rawRoles with
  | none | some .other => []
  | some (.text value) => if strip value = "" then [] else [normalized isFinal value]
  | some (.items values) => (values.filter fun role => strip role ≠ "").map (normalized isFinal)

/-- `_extract_roles`, given whether the scope is `records:write`. -/
def extractRoles (roles role : Option RawRoles) (writes : Bool) : List String :=
  let extracted := normalizeRoles isFinal roles ++ normalizeRoles isFinal role
  if extracted = [] ∧ writes = true then ["writer"] else extracted

/-- `require_roles`: whether nothing is raised. -/
def requireRoles (required current : List String) : Bool := required.any current.contains

def normalizedRequired (required : List String) : List String := required.map (Casing.lower isFinal)

end

/-! ## Normalising twice -/

variable {isFinal : List Char → List Char → Bool}

/-- Neither the first nor the last character is white space. -/
structure Trimmed (text : List Char) : Prop where
  head : ∀ c ∈ text.head?, RecordsV2.isSpace c = false
  last : ∀ c ∈ text.getLast?, RecordsV2.isSpace c = false

theorem dropWhile_of_head {text : List Char} (head : ∀ c ∈ text.head?, RecordsV2.isSpace c = false) :
    text.dropWhile RecordsV2.isSpace = text := by
  cases text with
  | nil => rfl
  | cons c text => rw [List.dropWhile_cons_of_neg (by simp [head c rfl])]

theorem strip_of_trimmed {text : List Char} (trimmed : Trimmed text) : RecordsV2.strip text = text := by
  have reversed : ∀ c ∈ text.reverse.head?, RecordsV2.isSpace c = false := by
    rw [List.head?_reverse]
    exact trimmed.last
  rw [RecordsV2.strip, dropWhile_of_head trimmed.head, dropWhile_of_head reversed, List.reverse_reverse]

theorem head_dropWhile (text : List Char) :
    ∀ c ∈ (text.dropWhile RecordsV2.isSpace).head?, RecordsV2.isSpace c = false := by
  induction text with
  | nil => rintro c ⟨⟩
  | cons first text ih =>
    rw [List.dropWhile_cons]
    split
    next => exact ih
    next solid =>
      rintro c ⟨⟩
      simpa using solid

theorem trimmed_strip (text : List Char) : Trimmed (RecordsV2.strip text) where
  last := by
    rw [RecordsV2.strip, List.getLast?_reverse]
    exact head_dropWhile _
  head := by
    intro c first
    rw [RecordsV2.strip, List.head?_reverse] at first
    -- What is left at the end has lost nothing at its front.
    obtain ⟨dropped, split⟩ := List.dropWhile_suffix (l := (text.dropWhile RecordsV2.isSpace).reverse) RecordsV2.isSpace
    have last : (text.dropWhile RecordsV2.isSpace).reverse.getLast? = some c := by
      rw [← split, List.getLast?_append, first]
      rfl
    rw [List.getLast?_reverse] at last
    exact head_dropWhile text c last

theorem small_solid : Casing.capitals.all (fun (first, last, step, small) =>
    (List.range ((last - first) / step + 1)).all fun place =>
      !RecordsV2.isSpace (Char.ofNat (small + place * step))) = true := by
  decide +kernel

theorem solid_lowerChar {c d : Char} (solid : RecordsV2.isSpace c = false) (member : d ∈ Casing.lowerChar c) :
    RecordsV2.isSpace d = false := by
  by_cases dotted : c = Casing.dottedI
  · rw [Casing.lowerChar, if_pos dotted] at member
    rcases List.mem_pair.mp member with rfl | rfl <;> decide
  · obtain ⟨small, lowered, code, -⟩ := Casing.lowerChar_of_ne dotted
    rw [lowered, List.mem_singleton] at member
    subst member
    rcases Casing.lowerCode_cases c.toNat with ⟨-, same⟩ | ⟨first, last, step, base, isRange, low, high, place, image⟩
    · rw [same] at code
      rwa [Char.toNat_inj.mp code]
    · have all := List.all_eq_true.mp small_solid _ isRange
      have exact := List.all_eq_true.mp all ((c.toNat - first) / step) (by
        rw [List.mem_range]
        exact Nat.lt_succ_of_le (Nat.div_le_div_right (by omega)))
      rw [Nat.div_mul_cancel (Nat.dvd_of_mod_eq_zero place), ← image, ← code, Char.ofNat_toNat] at exact
      simpa using exact

def lowered (isFinal : List Char → List Char → Bool) (before : List Char) (c : Char) (rest : List Char) : List Char :=
  if c = Casing.sigma then [Char.ofNat (if isFinal before rest then 0x3C2 else 0x3C3)] else Casing.lowerChar c

theorem lowered_cons (before : List Char) (c : Char) (rest : List Char) :
    ∃ d more, lowered isFinal before c rest = d :: more := by
  unfold lowered Casing.lowerChar
  split_ifs <;> exact ⟨_, _, rfl⟩

theorem solid_lowered {c d : Char} (solid : RecordsV2.isSpace c = false) {before rest : List Char}
    (member : d ∈ lowered isFinal before c rest) : RecordsV2.isSpace d = false := by
  unfold lowered at member
  split at member
  · rw [List.mem_singleton] at member
    subst member
    split <;> decide
  · exact solid_lowerChar solid member

theorem last_lowerAfter (before : List Char) {text : List Char} (last : ∀ c ∈ text.getLast?, RecordsV2.isSpace c = false) :
    ∀ c ∈ (Casing.lowerAfter isFinal before text).getLast?, RecordsV2.isSpace c = false := by
  induction text generalizing before with
  | nil => rintro c ⟨⟩
  | cons first rest ih =>
    have split : Casing.lowerAfter isFinal before (first :: rest) =
        lowered isFinal before first rest ++ Casing.lowerAfter isFinal (before ++ [first]) rest := rfl
    rw [split]
    cases rest with
    | nil =>
      intro c member
      rw [Casing.lowerAfter, List.append_nil] at member
      exact solid_lowered (last first rfl) (List.mem_of_getLast? member)
    | cons second rest =>
      have tail := ih (before ++ [first]) last
      obtain ⟨d, more, shape⟩ := @lowered_cons isFinal (before ++ [first]) second rest
      have next : Casing.lowerAfter isFinal (before ++ [first]) (second :: rest) =
          d :: (more ++ Casing.lowerAfter isFinal (before ++ [first] ++ [second]) rest) := by
        rw [← List.cons_append, ← shape]
        rfl
      rw [next] at tail ⊢
      rwa [List.getLast?_append_cons]

theorem trimmed_lowerAfter {text : List Char} (trimmed : Trimmed text) :
    Trimmed (Casing.lowerAfter isFinal [] text) where
  last := last_lowerAfter [] trimmed.last
  head := by
    cases text with
    | nil => rintro c ⟨⟩
    | cons first rest =>
      have split : Casing.lowerAfter isFinal [] (first :: rest) =
          lowered isFinal [] first rest ++ Casing.lowerAfter isFinal [first] rest := rfl
      obtain ⟨d, more, shape⟩ := @lowered_cons isFinal [] first rest
      rw [split, shape]
      rintro c ⟨⟩
      exact solid_lowered (trimmed.head first rfl) (shape ▸ List.mem_cons_self)

theorem strip_normalized (role : String) : strip (normalized isFinal role) = normalized isFinal role := by
  unfold normalized Casing.lower
  rw [strip, String.toList_ofList]
  refine congrArg String.ofList (strip_of_trimmed (trimmed_lowerAfter ?_))
  rw [strip, String.toList_ofList]
  exact trimmed_strip role.toList

theorem normalized_normalized (role : String) :
    normalized isFinal (normalized isFinal role) = normalized isFinal role := by
  rw [normalized, strip_normalized, normalized, Casing.lower_lower]

/-- A role that is written in small ASCII letters, and in nothing else, is its own lower case. -/
theorem lower_small {role : String}
    (small : ∀ c ∈ role.toList, c.toNat < 0x80 ∧ c.toLower = c ∧ c ≠ Casing.sigma) : Casing.lower isFinal role = role := by
  have stable : ∀ c ∈ role.toList, Casing.Stable c := by
    intro c member
    obtain ⟨ascii, lower, other⟩ := small c member
    exact ⟨other, (Casing.lowerChar_ascii ascii).trans (congrArg (fun d => [d]) lower)⟩
  rw [Casing.lower, Casing.lowerAfter_of_stable [] stable, String.ofList_toList]

end DataPipeline.Ingestor.Roles
