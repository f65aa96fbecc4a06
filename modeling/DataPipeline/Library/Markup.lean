import DataPipeline.Library.Text

/-! Text in the attributes of markup: how a template escapes it and how a browser reads it. -/

set_option autoImplicit false

namespace Markup

open Encoding

/-- The references that `markupsafe.escape` writes. -/
def escapeChar (c : Nat) : Text :=
  if c = 38 then Text.ofString "&amp;"
  else if c = 62 then Text.ofString "&gt;"
  else if c = 60 then Text.ofString "&lt;"
  else if c = 39 then Text.ofString "&#39;"
  else if c = 34 then Text.ofString "&#34;"
  else [c]

def escape (text : Text) : Text := text.flatMap escapeChar

def shownChar (c : Nat) : Nat := if c = 0 then 0xFFFD else c

/-- The references that `escape` writes are read. An ampersand that begins none of them
is read as itself, which holds in a browser unless it begins another reference. -/
def unescape : Text → Text
  | 38 :: 97 :: 109 :: 112 :: 59 :: text => 38 :: unescape text
  | 38 :: 103 :: 116 :: 59 :: text => 62 :: unescape text
  | 38 :: 108 :: 116 :: 59 :: text => 60 :: unescape text
  | 38 :: 35 :: 51 :: 57 :: 59 :: text => 39 :: unescape text
  | 38 :: 35 :: 51 :: 52 :: 59 :: text => 34 :: unescape text
  | c :: text => shownChar c :: unescape text
  | [] => []

/-- The value of an attribute, from after the quotation mark that opens it. -/
def attributeValue (markup : Text) : Text := unescape (markup.takeWhile (· ≠ 34))

variable {front text : Text} {c : Nat}

theorem not_mem_escape (text : Text) : 34 ∉ escape text := by
  intro member
  obtain ⟨c, _, place⟩ := List.mem_flatMap.mp member
  unfold escapeChar at place
  split_ifs at place with amp gt lt apostrophe quote
  · exact absurd place (by simp [Text.ofString])
  · exact absurd place (by simp [Text.ofString])
  · exact absurd place (by simp [Text.ofString])
  · exact absurd place (by simp [Text.ofString])
  · exact absurd place (by simp [Text.ofString])
  · exact quote (List.mem_singleton.mp place).symm

theorem unescape_cons_of_ne (other : c ≠ 38) (text : Text) : unescape (c :: text) = shownChar c :: unescape text := by
  rw [unescape]
  all_goals
    intros
    contradiction

theorem unescape_append_of_not_mem (absent : 38 ∉ front) (text : Text) :
    unescape (front ++ text) = front.map shownChar ++ unescape text := by
  induction front with
  | nil => rfl
  | cons c front ih =>
    have other : c ≠ 38 := fun same => absent (same ▸ List.mem_cons_self)
    rw [List.cons_append, unescape_cons_of_ne other, ih fun member => absent (List.mem_cons_of_mem _ member)]
    rfl

theorem unescape_escapeChar (c : Nat) (text : Text) :
    unescape (escapeChar c ++ text) = shownChar c :: unescape text := by
  unfold escapeChar
  split_ifs with amp gt lt apostrophe quote
  · subst amp
    rfl
  · subst gt
    rfl
  · subst lt
    rfl
  · subst apostrophe
    rfl
  · subst quote
    rfl
  · exact unescape_cons_of_ne amp text

/-- What was escaped is read as it was, but for the null characters. -/
theorem unescape_escape (text rest : Text) :
    unescape (escape text ++ rest) = text.map shownChar ++ unescape rest := by
  induction text with
  | nil => rfl
  | cons c text ih =>
    rw [escape, List.flatMap_cons, List.append_assoc, unescape_escapeChar]
    exact congrArg (shownChar c :: ·) ih

theorem attributeValue_of_not_mem (unquoted : 34 ∉ text) (rest : Text) :
    attributeValue (text ++ 34 :: rest) = unescape text := by
  have inside : ∀ c ∈ text, decide (c ≠ 34) = true := by
    intro c member
    exact decide_eq_true fun same => unquoted (same ▸ member)
  rw [attributeValue, List.takeWhile_append_of_pos inside]
  simp

end Markup
