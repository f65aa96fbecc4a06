import Mathlib.Data.List.Basic
import Mathlib.Data.Nat.Basic

/-! Reading a list page by page at offsets. That another page follows is told
from a page being full, or from how many rows there are.
-/

set_option autoImplicit false

namespace Paging

/-- A page, the offset it was read at, and whether it announces another one. -/
structure Page (Row : Type) where
  offset : Nat
  rows : List Row
  more : Bool
  deriving DecidableEq

variable {Row : Type}

/-- Follows the pages from an offset as long as they announce another one.
None if `fuel` pages are not enough. -/
def scroll (fetch : Nat → List Row × Bool) (size : Nat) : Nat → Nat → Option (List (Page Row))
  | 0, _ => none
  | fuel + 1, offset =>
    let (rows, more) := fetch offset
    if more then (scroll fetch size fuel (offset + size)).map (⟨offset, rows, more⟩ :: ·)
    else some [⟨offset, rows, more⟩]

/-- The pages of a scroll that comes to an end. -/
def Scrolls (fetch : Nat → List Row × Bool) (size offset : Nat) (pages : List (Page Row)) : Prop :=
  ∃ fuel, scroll fetch size fuel offset = some pages

section

variable {fetch : Nat → List Row × Bool} {size offset fuel : Nat} {pages others : List (Page Row)}

theorem scroll_last (last : (fetch offset).2 = false) :
    scroll fetch size (fuel + 1) offset = some [⟨offset, (fetch offset).1, false⟩] := by
  simp [scroll, last]

theorem scroll_more (more : (fetch offset).2 = true) :
    scroll fetch size (fuel + 1) offset =
      (scroll fetch size fuel (offset + size)).map (⟨offset, (fetch offset).1, true⟩ :: ·) := by
  simp [scroll, more]

theorem scroll_mono (scrolled : scroll fetch size fuel offset = some pages) (spare : Nat) :
    scroll fetch size (fuel + spare) offset = some pages := by
  induction fuel generalizing offset pages with
  | zero => cases scrolled
  | succ fuel ih =>
    rw [Nat.add_right_comm]
    cases more : (fetch offset).2 with
    | false =>
      rw [scroll_last more] at scrolled ⊢
      exact scrolled
    | true =>
      rw [scroll_more more] at scrolled ⊢
      obtain ⟨rest, following, rfl⟩ := Option.map_eq_some_iff.mp scrolled
      rw [ih following]
      rfl

theorem Scrolls.unique (first : Scrolls fetch size offset pages) (second : Scrolls fetch size offset others) :
    pages = others := by
  obtain ⟨fuel, first⟩ := first
  obtain ⟨enough, second⟩ := second
  have longer := scroll_mono first enough
  rw [Nat.add_comm, scroll_mono second fuel] at longer
  exact (Option.some.inj longer).symm

/-- The pages up to the first one that announces no other. -/
theorem scroll_eq (count : Nat) (goes : ∀ number < count, (fetch (offset + number * size)).2 = true)
    (stops : (fetch (offset + count * size)).2 = false) :
    scroll fetch size (count + 1) offset = some ((List.range (count + 1)).map fun number =>
      ⟨offset + number * size, (fetch (offset + number * size)).1, (fetch (offset + number * size)).2⟩) := by
  induction count generalizing offset with
  | zero =>
    rw [Nat.zero_mul, Nat.add_zero] at stops
    rw [scroll_last stops]
    simp [stops]
  | succ count ih =>
    have first : (fetch offset).2 = true := by
      have first := goes 0 count.succ_pos
      rwa [Nat.zero_mul, Nat.add_zero] at first
    have shift (number : Nat) : offset + size + number * size = offset + (number + 1) * size := by
      rw [Nat.succ_mul, Nat.add_assoc, Nat.add_comm size]
    have rest := @ih (offset + size)
      (fun number small => by rw [shift]; exact goes (number + 1) (Nat.succ_lt_succ small)) (by rw [shift]; exact stops)
    rw [scroll_more first, rest, List.range_succ_eq_map (n := count + 1), Option.map_some, List.map_cons, List.map_map]
    simp only [Nat.zero_mul, Nat.add_zero, first, shift, Function.comp_def, Nat.succ_eq_add_one]

end

def window (size : Nat) (all : List Row) (offset : Nat) : List Row := (all.drop offset).take size

section

variable {size : Nat} {all : List Row} {offset : Nat}

theorem window_ne_nil (positive : 0 < size) : window size all offset ≠ [] ↔ offset < all.length := by
  rw [← List.length_pos_iff, window, List.length_take, List.length_drop]
  omega

theorem flatMap_windows (count : Nat) :
    (List.range count).flatMap (fun number => window size all (number * size)) = all.take (count * size) := by
  induction count with
  | zero => simp
  | succ count ih =>
    rw [List.range_succ, List.flatMap_append, ih, List.flatMap_singleton, window, Nat.succ_mul, List.take_add]

end

/-! ## Full pages -/

def fullPage (size : Nat) (all : List Row) (offset : Nat) : List Row × Bool :=
  (window size all offset, (window size all offset).length == size)

def pageAt (size : Nat) (all : List Row) (offset : Nat) : Page Row :=
  ⟨offset, (fullPage size all offset).1, (fullPage size all offset).2⟩

/-- The pages up to the first one that is not full. -/
def pages (size : Nat) (all : List Row) : List (Page Row) :=
  (List.range (all.length / size + 1)).map fun number => pageAt size all (number * size)

variable {size : Nat} {all : List Row} {offset : Nat}

theorem fullPage_more : (fullPage size all offset).2 = true ↔ size = 0 ∨ offset + size ≤ all.length := by
  simp only [fullPage, window, List.length_take, List.length_drop, beq_iff_eq]
  omega

theorem fullPage_rows : (fullPage size all offset).1 ≠ [] ↔ 0 < size ∧ offset < all.length := by
  rw [← List.length_pos_iff]
  simp only [fullPage, window, List.length_take, List.length_drop]
  omega

theorem scrolls_pages (positive : 0 < size) (all : List Row) : Scrolls (fullPage size all) size 0 (pages size all) := by
  have goes : ∀ number < all.length / size, (fullPage size all (0 + number * size)).2 = true := by
    intro number small
    have fits := Nat.mul_le_mul_right size (Nat.succ_le_of_lt small)
    have whole := Nat.div_mul_le_self all.length size
    rw [Nat.succ_mul] at fits
    exact fullPage_more.mpr (.inr (by omega))
  have stops : (fullPage size all (0 + all.length / size * size)).2 = false := by
    rw [Bool.eq_false_iff, ne_eq, fullPage_more]
    have beyond := Nat.lt_mul_of_div_lt (Nat.lt_succ_self (all.length / size)) positive
    rw [Nat.succ_mul] at beyond
    omega
  have scrolled := scroll_eq _ goes stops
  simp only [Nat.zero_add] at scrolled
  exact ⟨_, scrolled⟩

theorem rows_pages (positive : 0 < size) (all : List Row) : (pages size all).flatMap Page.rows = all := by
  rw [pages, List.flatMap_map]
  exact (flatMap_windows _).trans
    (List.take_of_length_le (Nat.le_of_lt (Nat.lt_mul_of_div_lt (Nat.lt_succ_self _) positive)))

/-- A full page announces the next one rightly except where the last row is the last of a page. -/
theorem announced_iff (positive : 0 < size) (all : List Row) :
    (∀ page ∈ pages size all, page.more = true ↔ (fullPage size all (page.offset + size)).1 ≠ []) ↔
      ¬ (all ≠ [] ∧ size ∣ all.length) := by
  simp only [pages, List.forall_mem_map, List.mem_range, pageAt, fullPage_more, fullPage_rows, positive, true_and]
  constructor
  · rintro right ⟨some, number, exact⟩
    have rows : 0 < all.length := List.length_pos_iff.mpr some
    -- The last full page is announced as if another one followed.
    obtain ⟨before, rfl⟩ : ∃ before, number = before + 1 := Nat.exists_eq_add_one.mpr
      (Nat.pos_of_ne_zero fun none => by simp [exact, none] at rows)
    have last := right before (by rw [exact, Nat.mul_div_cancel_left _ positive]; omega)
    rw [Nat.mul_succ, Nat.mul_comm] at exact
    omega
  · intro apart number _
    have different : number * size + size ≠ all.length := by
      intro ends
      refine apart ⟨fun none => ?_, number + 1, by rw [← ends, Nat.mul_comm, Nat.mul_succ]⟩
      rw [none, List.length_nil] at ends
      omega
    omega

/-! ## Counted pages -/

/-- A page with whether the rows counted in all go on after it. -/
def countedPage (size : Nat) (all : List Row) (offset : Nat) : List Row × Bool :=
  (window size all offset, offset + size < all.length)

/-- The pages up to the one with the last row, and the first page at any rate. -/
def countedPages (size : Nat) (all : List Row) : List (Page Row) :=
  (List.range ((all.length - 1) / size + 1)).map fun number =>
    ⟨number * size, (countedPage size all (number * size)).1, (countedPage size all (number * size)).2⟩

theorem countedPage_more : (countedPage size all offset).2 = true ↔ offset + size < all.length := decide_eq_true_iff

theorem scrolls_countedPages (positive : 0 < size) (all : List Row) :
    Scrolls (countedPage size all) size 0 (countedPages size all) := by
  have goes : ∀ number < (all.length - 1) / size, (countedPage size all (0 + number * size)).2 = true := by
    intro number small
    have fits := Nat.mul_le_mul_right size (Nat.succ_le_of_lt small)
    have whole := Nat.div_mul_le_self (all.length - 1) size
    rw [Nat.succ_mul] at fits
    exact countedPage_more.mpr (by omega)
  have stops : (countedPage size all (0 + (all.length - 1) / size * size)).2 = false := by
    rw [Bool.eq_false_iff, ne_eq, countedPage_more]
    have beyond := Nat.lt_mul_of_div_lt (Nat.lt_succ_self ((all.length - 1) / size)) positive
    rw [Nat.succ_mul] at beyond
    omega
  have scrolled := scroll_eq _ goes stops
  simp only [Nat.zero_add] at scrolled
  exact ⟨_, scrolled⟩

theorem rows_countedPages (positive : 0 < size) (all : List Row) : (countedPages size all).flatMap Page.rows = all := by
  rw [countedPages, List.flatMap_map]
  have beyond := Nat.lt_mul_of_div_lt (Nat.lt_add_one ((all.length - 1) / size)) positive
  exact (flatMap_windows _).trans (List.take_of_length_le (by omega))

theorem counted_announced (positive : 0 < size) {page : Page Row} (member : page ∈ countedPages size all) :
    page.more = true ↔ window size all (page.offset + size) ≠ [] := by
  obtain ⟨number, -, rfl⟩ := List.mem_map.mp member
  rw [window_ne_nil positive]
  exact countedPage_more

end Paging
