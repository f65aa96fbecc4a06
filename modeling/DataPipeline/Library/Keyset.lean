import Mathlib.Data.List.Sort
import Mathlib.Data.List.Nodup

/-! Reading a changing set of rows page by page in the order of a key, where
each page starts beyond the last row of the page before.
-/

set_option autoImplicit false

namespace Keyset

variable {Row Key : Type} [LinearOrder Key]

/-- The first rows in the order of their keys, as `ORDER BY` and `LIMIT` give them. -/
def select (keyOf : Row → Key) (limit : Nat) (rows : List Row) : List Row :=
  (rows.insertionSort fun first second => keyOf first ≤ keyOf second).take limit

def Increasing (keyOf : Row → Key) (rows : List Row) : Prop :=
  rows.Pairwise fun first second => keyOf first < keyOf second

/-- The key comes after the position, which is none before the first page. -/
def Beyond (position : Option Key) (key : Key) : Prop := ∀ last ∈ position, last < key

variable {keyOf : Row → Key} {limit : Nat} {rows returned : List Row} {row last : Row} {position : Option Key}

@[simp] theorem beyond_none {key : Key} : Beyond none key :=
  fun _ member => absurd member (Option.not_mem_none _)

@[simp] theorem beyond_some {first key : Key} : Beyond (some first) key ↔ first < key := by
  simp only [Beyond, Option.mem_def, Option.some.injEq, forall_eq']

/-! ## One page -/

theorem nodup_map_select {Field : Type} {fieldOf : Row → Field} (distinct : (rows.map fieldOf).Nodup) :
    ((select keyOf limit rows).map fieldOf).Nodup := by
  have sorted := List.perm_insertionSort (fun first second => keyOf first ≤ keyOf second) rows
  exact ((List.take_sublist limit _).map fieldOf).nodup ((sorted.map fieldOf).nodup_iff.mpr distinct)

theorem increasing_insertionSort (distinct : (rows.map keyOf).Nodup) :
    Increasing keyOf (rows.insertionSort fun first second => keyOf first ≤ keyOf second) := by
  have ordered := List.pairwise_insertionSort (fun first second => keyOf first ≤ keyOf second) rows
  have different : (rows.insertionSort fun first second => keyOf first ≤ keyOf second).Pairwise
      fun first second => keyOf first ≠ keyOf second := by
    rw [← List.pairwise_map]
    exact ((List.perm_insertionSort _ rows).map keyOf).nodup_iff.mpr distinct
  exact (ordered.and different).imp fun both => lt_of_le_of_ne both.1 both.2

theorem increasing_select (distinct : (rows.map keyOf).Nodup) : Increasing keyOf (select keyOf limit rows) :=
  (increasing_insertionSort distinct).sublist (List.take_sublist limit _)

theorem mem_of_mem_select (member : row ∈ select keyOf limit rows) : row ∈ rows :=
  (List.mem_insertionSort _).mp (List.mem_of_mem_take member)

@[simp] theorem length_select : (select keyOf limit rows).length = min limit rows.length := by
  rw [select, List.length_take, List.length_insertionSort]

theorem take_select : (select keyOf (limit + 1) rows).take limit = select keyOf limit rows := by
  rw [select, List.take_take, Nat.min_eq_left (Nat.le_succ limit), select]

theorem lt_of_not_mem_select (distinct : (rows.map keyOf).Nodup) (member : row ∈ rows)
    (missing : row ∉ select keyOf limit rows) : ∀ chosen ∈ select keyOf limit rows, keyOf chosen < keyOf row := by
  intro chosen chosenIn
  have sorted := increasing_insertionSort distinct
  -- The sorted rows are the page and what was cut off after it.
  rw [← List.take_append_drop limit (rows.insertionSort _), Increasing, List.pairwise_append] at sorted
  apply sorted.2.2 chosen chosenIn row
  have somewhere := (List.mem_insertionSort fun first second => keyOf first ≤ keyOf second).mpr member
  rw [← List.take_append_drop limit (rows.insertionSort _), List.mem_append] at somewhere
  exact somewhere.resolve_left missing

theorem mem_select_of_short (short : rows.length ≤ limit) (member : row ∈ rows) :
    row ∈ select keyOf limit rows := by
  rw [select, List.take_of_length_le (by rwa [List.length_insertionSort])]
  exact (List.mem_insertionSort _).mpr member

/-- There are more rows than the page holds exactly if some row comes after all of the page. -/
theorem lt_length_iff (distinct : (rows.map keyOf).Nodup) :
    limit < rows.length ↔ ∃ row ∈ rows, ∀ chosen ∈ select keyOf limit rows, keyOf chosen < keyOf row := by
  constructor
  · intro more
    -- Some row is missing from the page, since the page is shorter.
    obtain ⟨row, member, missing⟩ : ∃ row ∈ rows, row ∉ select keyOf limit rows := by
      by_contra all
      push Not at all
      have fits := (List.subperm_of_subset (distinct.of_map keyOf) all).length_le
      rw [length_select] at fits
      omega
    exact ⟨row, member, lt_of_not_mem_select distinct member missing⟩
  · rintro ⟨row, member, after⟩
    by_contra short
    exact lt_irrefl _ (after row (mem_select_of_short (Nat.not_lt.mp short) member))

theorem le_last (distinct : (rows.map keyOf).Nodup) (ends : (select keyOf limit rows).getLast? = some last)
    (member : row ∈ select keyOf limit rows) : keyOf row ≤ keyOf last := by
  obtain ⟨front, shape⟩ := List.getLast?_eq_some_iff.mp ends
  have sorted : Increasing keyOf (select keyOf limit rows) := increasing_select distinct
  rw [shape, Increasing, List.pairwise_append] at sorted
  rw [shape, List.mem_append, List.mem_singleton] at member
  rcases member with earlier | rfl
  · exact (sorted.2.2 row earlier last (List.mem_singleton_self last)).le
  · exact le_rfl

/-! ## A traversal -/

/-- What holds between two pages: `returned` are the rows of the pages so far,
and `steady` rows are those that every page could see. -/
structure Traversal (keyOf : Row → Key) (steady : Row → Prop) (position : Option Key) (returned : List Row) :
    Prop where
  increasing : Increasing keyOf returned
  behind : ∀ row ∈ returned, ¬ Beyond position (keyOf row)
  reached : ∀ key ∈ position, ∃ row ∈ returned, keyOf row = key
  complete : ∀ row, steady row → ¬ Beyond position (keyOf row) → row ∈ returned

namespace Traversal

variable {steady : Row → Prop}

theorem start : Traversal keyOf steady none [] where
  increasing := List.Pairwise.nil
  behind := fun _ member => absurd member List.not_mem_nil
  reached := fun _ member => absurd member (Option.not_mem_none _)
  complete := fun _ _ behind => absurd beyond_none behind

theorem beyond_iff (traversal : Traversal keyOf steady position returned) {key : Key} :
    Beyond position key ↔ ∀ row ∈ returned, keyOf row < key := by
  constructor
  · intro beyond row member
    have behind := traversal.behind row member
    simp only [Beyond, not_forall] at behind
    obtain ⟨last, present, upTo⟩ := behind
    exact lt_of_le_of_lt (not_lt.mp upTo) (beyond last present)
  · intro after last present
    obtain ⟨row, member, rfl⟩ := traversal.reached last present
    exact after row member

theorem increasing_append (traversal : Traversal keyOf steady position returned)
    (distinct : (rows.map keyOf).Nodup) (beyond : ∀ row ∈ rows, Beyond position (keyOf row)) :
    Increasing keyOf (returned ++ select keyOf limit rows) := by
  rw [Increasing, List.pairwise_append]
  refine ⟨traversal.increasing, increasing_select distinct, fun old oldIn new newIn => ?_⟩
  exact traversal.beyond_iff.mp (beyond new (mem_of_mem_select newIn)) old oldIn

theorem next (traversal : Traversal keyOf steady position returned) (distinct : (rows.map keyOf).Nodup)
    (beyond : ∀ row ∈ rows, Beyond position (keyOf row))
    (visible : ∀ row, steady row → Beyond position (keyOf row) → row ∈ rows)
    (ends : (select keyOf limit rows).getLast? = some last) :
    Traversal keyOf steady (some (keyOf last)) (returned ++ select keyOf limit rows) := by
  have lastIn : last ∈ select keyOf limit rows := List.mem_of_getLast? ends
  refine ⟨traversal.increasing_append distinct beyond, ?_, ?_, ?_⟩
  · intro row member after
    have later := beyond_some.mp after
    rcases List.mem_append.mp member with old | new
    -- Old rows come before the whole page, and new ones up to its last row.
    · have sooner := traversal.beyond_iff.mp (beyond last (mem_of_mem_select lastIn)) row old
      exact lt_asymm sooner later
    · exact absurd later (not_lt.mpr (le_last distinct ends new))
  · intro key member
    exact ⟨last, List.mem_append_right _ lastIn, Option.mem_some.mp member⟩
  · intro row always behind
    apply List.mem_append.mpr
    by_contra missing
    rw [not_or] at missing
    -- It was not returned before, so it was still to come when the page was read.
    have pending : Beyond position (keyOf row) := by
      by_contra read
      exact missing.1 (traversal.complete row always read)
    apply behind
    rw [beyond_some]
    exact lt_of_not_mem_select distinct (visible row always pending) missing.2 last lastIn

/-- After the last page, every row that all pages could see has been returned. -/
theorem finish (traversal : Traversal keyOf steady position returned)
    (visible : ∀ row, steady row → Beyond position (keyOf row) → row ∈ rows) (short : rows.length ≤ limit) :
    ∀ row, steady row → row ∈ returned ++ select keyOf limit rows := by
  intro row always
  apply List.mem_append.mpr
  by_cases pending : Beyond position (keyOf row)
  · exact .inr (mem_select_of_short short (visible row always pending))
  · exact .inl (traversal.complete row always pending)

end Traversal

end Keyset
