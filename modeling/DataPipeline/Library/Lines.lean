import DataPipeline.Library.Text
import Mathlib.Data.List.TakeWhile

/-! Text cut into lines and words, where the cuts are those of Python's `str` methods. -/

set_option autoImplicit false

namespace Lines

open Encoding

/-- What `isspace` says of a character. -/
def isSpace (c : Nat) : Bool :=
  (9 ≤ c && c ≤ 13) || (28 ≤ c && c ≤ 32) || c = 0x85 || c = 0xA0 || c = 0x1680 || (0x2000 ≤ c && c ≤ 0x200A) ||
    c = 0x2028 || c = 0x2029 || c = 0x202F || c = 0x205F || c = 0x3000

/-- The characters that end a line. -/
def isBoundary (c : Nat) : Bool :=
  (10 ≤ c && c ≤ 13) || (28 ≤ c && c ≤ 30) || c = 0x85 || c = 0x2028 || c = 0x2029

/-- Cuts at the characters that end a line, with what there is of the line so far. -/
def linesFrom (ends : Nat → Bool) : Text → Text → List Text
  | current, [] => if current = [] then [] else [current]
  | current, c :: rest =>
    if ends c then
      -- A carriage return and the line feed behind it are one end.
      if c = 13 ∧ rest.head? = some 10 then linesFrom ends current rest else current :: linesFrom ends [] rest
    else linesFrom ends (current ++ [c]) rest

/-- Cuts at blanks and leaves out what is empty, with what there is of the word so far. -/
def wordsFrom (blank : Nat → Bool) : Text → Text → List Text
  | current, [] => if current = [] then [] else [current]
  | current, c :: rest =>
    if blank c then if current = [] then wordsFrom blank [] rest else current :: wordsFrom blank [] rest
    else wordsFrom blank (current ++ [c]) rest

def splitlines (text : Text) : List Text := linesFrom isBoundary [] text

/-- `split`, without an argument. -/
def split (text : Text) : List Text := wordsFrom isSpace [] text

section

variable {ends blank : Nat → Bool} {current line word spaces rest : Text} {c : Nat}

theorem linesFrom_append (whole : ∀ c ∈ line, ends c = false) :
    linesFrom ends current (line ++ rest) = linesFrom ends (current ++ line) rest := by
  induction line generalizing current with
  | nil => rw [List.nil_append, List.append_nil]
  | cons c line ih =>
    have inside : ¬ ends c = true := Bool.eq_false_iff.mp (whole c List.mem_cons_self)
    rw [List.cons_append, linesFrom, if_neg inside, ih fun d member => whole d (List.mem_cons_of_mem c member),
      List.append_assoc, List.singleton_append]

theorem wordsFrom_append (solid : ∀ c ∈ word, blank c = false) :
    wordsFrom blank current (word ++ rest) = wordsFrom blank (current ++ word) rest := by
  induction word generalizing current with
  | nil => rw [List.nil_append, List.append_nil]
  | cons c word ih =>
    have inside : ¬ blank c = true := Bool.eq_false_iff.mp (solid c List.mem_cons_self)
    rw [List.cons_append, wordsFrom, if_neg inside, ih fun d member => solid d (List.mem_cons_of_mem c member),
      List.append_assoc, List.singleton_append]

theorem wordsFrom_blanks (all : ∀ c ∈ spaces, blank c = true) :
    wordsFrom blank [] (spaces ++ rest) = wordsFrom blank [] rest := by
  induction spaces with
  | nil => rfl
  | cons c spaces ih =>
    rw [List.cons_append, wordsFrom, if_pos (all c List.mem_cons_self), if_pos rfl,
      ih fun d member => all d (List.mem_cons_of_mem c member)]

theorem wordsFrom_word (solid : ∀ c ∈ word, blank c = false) (some_ : word ≠ [])
    (stops : ∀ c, rest.head? = some c → blank c = true) :
    wordsFrom blank [] (word ++ rest) = word :: wordsFrom blank [] rest := by
  rw [wordsFrom_append solid, List.nil_append]
  cases rest with
  | nil => rw [wordsFrom, if_neg some_, wordsFrom, if_pos rfl]
  | cons c rest =>
    rw [wordsFrom, if_pos (stops c rfl), if_neg some_, wordsFrom, if_pos (stops c rfl), if_pos rfl]

end

variable {line word spaces rest : Text}

theorem splitlines_line (whole : ∀ c ∈ line, isBoundary c = false) :
    splitlines (line ++ 10 :: rest) = line :: splitlines rest := by
  rw [splitlines, linesFrom_append whole]
  rfl

/-- Lines without other boundaries are the lines that were put together. -/
theorem splitlines_flatMap {lines : List Text} (whole : ∀ line ∈ lines, ∀ c ∈ line, isBoundary c = false) :
    splitlines (lines.flatMap fun line => line ++ [10]) = lines := by
  induction lines with
  | nil => rfl
  | cons line lines ih =>
    rw [List.flatMap_cons, List.append_assoc, List.singleton_append, splitlines_line (whole line List.mem_cons_self),
      ih fun other member => whole other (List.mem_cons_of_mem line member)]

theorem split_spaces (all : ∀ c ∈ spaces, isSpace c = true) : split (spaces ++ rest) = split rest :=
  wordsFrom_blanks all

theorem split_word (solid : ∀ c ∈ word, isSpace c = false) (some_ : word ≠ [])
    (stops : ∀ c, rest.head? = some c → isSpace c = true) : split (word ++ rest) = word :: split rest :=
  wordsFrom_word solid some_ stops

theorem split_first {c : Nat} (inside : isSpace c = false) :
    split (c :: rest) = (c :: rest.takeWhile fun d => !isSpace d) :: split (rest.dropWhile fun d => !isSpace d) := by
  have parts : c :: rest = (c :: rest.takeWhile fun d => !isSpace d) ++ rest.dropWhile fun d => !isSpace d := by
    rw [List.cons_append, List.takeWhile_append_dropWhile]
  rw [parts]
  refine split_word ?_ (List.cons_ne_nil _ _) ?_
  · intro d member
    rcases List.mem_cons.mp member with rfl | later
    · exact inside
    · simpa using List.mem_takeWhile_imp later
  · intro d first
    have stops := List.head?_dropWhile_not (fun d => !isSpace d) rest
    rw [first] at stops
    simpa using stops

end Lines
